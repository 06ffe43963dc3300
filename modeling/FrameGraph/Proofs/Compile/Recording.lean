/-
  FrameGraph.Proofs.Compile.Recording: what a back end has recorded.

  A handle stands for the tree that can be read off a back end by asking for the operation or
  the members behind it (`Denotes`). A lawful back end hands out a handle that it has not used,
  tells operations from groups, and never changes what an earlier handle leads to: it only
  grows (`Extends`), so a handle stands for the same tree from then on (`Denotes.mono`). Both back
  ends are lawful.
-/

import FrameGraph.Pipeline.Builder
import FrameGraph.Program.Builder
import FrameGraph.Proofs.Compile.Reference
import Mathlib.Data.List.Forall2

namespace FrameGraph

open Evaluator (addOperation addArray operation? arrayMembers? conversion?)

variable {ε : Type} [Evaluator ε]

/-! ## Growing back ends -/

structure Extends (b b' : ε) : Prop where
  operation : ∀ {h : Handle} {op : Operation}, operation? b h = some op → operation? b' h = some op
  members : ∀ {h : Handle} {ms : List Handle}, arrayMembers? b h = some ms → arrayMembers? b' h = some ms
  conversion : conversion? b' = conversion? b

theorem Extends.refl (b : ε) : Extends b b := ⟨id, id, rfl⟩

theorem Extends.trans {b c d : ε} (h : Extends b c) (h' : Extends c d) : Extends b d :=
  ⟨fun found => h'.operation (h.operation found), fun found => h'.members (h.members found),
    h'.conversion.trans h.conversion⟩

/-- The back end offers the conversions of a registry. -/
def Offers (b : ε) (registry : Registry) : Prop :=
  ∀ source target, conversion? b source target = registry source target

theorem Offers.stays {b b' : ε} {registry : Registry} (h : Offers b registry) (grows : Extends b b') :
    Offers b' registry := by
  intro source target
  rw [grows.conversion]
  exact h source target

class LawfulEvaluator (ε : Type) [Evaluator ε] : Prop where
  exclusive : ∀ {b : ε} {h : Handle} {op : Operation}, operation? b h = some op → arrayMembers? b h = none
  addOperation_extends : ∀ (b : ε) (op : Operation), Extends b (addOperation b op).1
  addOperation_recorded : ∀ (b : ε) (op : Operation),
    operation? (addOperation b op).1 (addOperation b op).2 = some op
  addArray_extends : ∀ (b : ε) (name : String) (members : List Handle), Extends b (addArray b name members).1
  addArray_recorded : ∀ (b : ε) (name : String) (members : List Handle),
    arrayMembers? (addArray b name members).1 (addArray b name members).2 = some members

/-! ## What a handle stands for -/

mutual

def Denotes (b : ε) (h : Handle) : Tree → Prop
  | .operation kind name type operands =>
    ∃ inputs, operation? b h = some ⟨kind, name, type, inputs⟩ ∧ DenotesAll b inputs operands
  | .group trees => ∃ members, arrayMembers? b h = some members ∧ DenotesAll b members trees

def DenotesAll (b : ε) (hs : List Handle) : List Tree → Prop
  | [] => hs = []
  | tree :: trees => ∃ h rest, hs = h :: rest ∧ Denotes b h tree ∧ DenotesAll b rest trees

end

mutual

theorem Denotes.mono {b b' : ε} (grows : Extends b b') {h : Handle} :
    ∀ {tree : Tree}, Denotes b h tree → Denotes b' h tree
  | .operation .., d => by
    obtain ⟨inputs, found, each⟩ := d
    exact ⟨inputs, grows.operation found, each.mono grows⟩
  | .group _, d => by
    obtain ⟨members, found, each⟩ := d
    exact ⟨members, grows.members found, each.mono grows⟩

theorem DenotesAll.mono {b b' : ε} (grows : Extends b b') {hs : List Handle} :
    ∀ {trees : List Tree}, DenotesAll b hs trees → DenotesAll b' hs trees
  | [], d => d
  | _ :: _, d => by
    obtain ⟨h, rest, rfl, first, others⟩ := d
    exact ⟨h, rest, rfl, first.mono grows, others.mono grows⟩

end

theorem denotesAll_iff {b : ε} {hs : List Handle} {trees : List Tree} :
    DenotesAll b hs trees ↔ List.Forall₂ (Denotes b) hs trees := by
  induction trees generalizing hs with
  | nil => simp [DenotesAll]
  | cons tree trees ih =>
    simp only [DenotesAll, List.forall₂_cons_right_iff, ih]
    constructor
    · intro split
      obtain ⟨h, rest, rfl, first, others⟩ := split
      exact ⟨h, rest, first, others, rfl⟩
    · intro split
      obtain ⟨h, rest, first, others, rfl⟩ := split
      exact ⟨h, rest, rfl, first, others⟩

section Lawful

variable [LawfulEvaluator ε] {b : ε} {h : Handle} {tree : Tree}

/-- The members of a value are those of its tree. -/
theorem Denotes.members? (d : Denotes b h tree) :
    match tree.members? with
    | some trees => ∃ ms, arrayMembers? b h = some ms ∧ List.Forall₂ (Denotes b) ms trees
    | none => arrayMembers? b h = none := by
  cases tree with
  | operation kind name type operands =>
    obtain ⟨inputs, found, -⟩ := d
    exact LawfulEvaluator.exclusive found
  | group trees =>
    obtain ⟨members, found, each⟩ := d
    exact ⟨members, found, denotesAll_iff.1 each⟩

theorem Denotes.name? (d : Denotes b h tree) :
    (operation? b h).map Operation.name = tree.name? := by
  cases tree with
  | operation kind name type operands =>
    obtain ⟨inputs, found, -⟩ := d
    rw [found]
    rfl
  | group trees =>
    obtain ⟨members, found, -⟩ := d
    cases op : operation? b h with
    | none => rfl
    | some op =>
      rw [LawfulEvaluator.exclusive op] at found
      cases found

end Lawful

/-! ## The back ends are lawful -/

theorem getElem?_push_of_some {α : Type} {a : Array α} {x y : α} {i : Nat} (h : a[i]? = some y) :
    (a.push x)[i]? = some y := by
  obtain ⟨lt, eq⟩ := Array.getElem?_eq_some_iff.1 h
  rw [Array.getElem?_push_lt lt, eq]

theorem Pipeline.Builder.push_extends (b : Builder) (e : Entry) : Extends b (b.push e).1 := by
  refine ⟨?_, ?_, rfl⟩
  all_goals
    intro h _ found
    obtain ⟨entry, place, recorded⟩ := Option.bind_eq_some_iff.1 found
    exact Option.bind_eq_some_iff.2 ⟨entry, getElem?_push_of_some place, recorded⟩

theorem Pipeline.Builder.offers_new (conversions : Conversions) (trace : Bool) :
    Offers (Builder.new conversions trace) conversions.find? :=
  conversions.get?_table

instance : LawfulEvaluator Pipeline.Builder where
  exclusive := by
    intro b h op found
    obtain ⟨entry, place, recorded⟩ := Option.bind_eq_some_iff.1 found
    cases entry with
    | operation op => simp [arrayMembers?, place, Pipeline.Entry.members?]
    | group name members => cases recorded
  addOperation_extends b op := b.push_extends _
  addOperation_recorded b op := by
    simp [addOperation, operation?, Pipeline.Builder.push, Pipeline.Entry.operation?]
  addArray_extends b name members := b.push_extends _
  addArray_recorded b name members := by
    simp [addArray, arrayMembers?, Pipeline.Builder.push, Pipeline.Entry.members?]

namespace Program.Builder

theorem push_extends (b : Builder) (d : Definition) : Extends b (b.push d).1 := by
  refine ⟨?_, ?_, rfl⟩
  all_goals
    intro h _ found
    obtain ⟨definition, place, recorded⟩ := Option.bind_eq_some_iff.1 found
    exact Option.bind_eq_some_iff.2 ⟨definition, getElem?_push_of_some place, recorded⟩

theorem declare_keeps (b : Builder) (name line : String) :
    (b.declare name line).definitions = b.definitions ∧ (b.declare name line).conversions = b.conversions := by
  unfold declare
  split <;> exact ⟨rfl, rfl⟩

theorem declareSampler_keeps (b : Builder) (name : String) :
    (b.declareSampler name).definitions = b.definitions
      ∧ (b.declareSampler name).conversions = b.conversions := by
  unfold declareSampler
  split
  · exact ⟨rfl, rfl⟩
  · exact b.declare_keeps _ _

/-- Writing a statement records nothing yet. -/
theorem lower_keeps (b : Builder) (op : Operation) :
    (b.lower op).1.definitions = b.definitions ∧ (b.lower op).1.conversions = b.conversions := by
  unfold lower
  split
  · exact b.declare_keeps _ _
  · exact b.declareSampler_keeps _
  all_goals exact ⟨rfl, rfl⟩

theorem lower_extends (b : Builder) (op : Operation) : Extends b (b.lower op).1 := by
  obtain ⟨definitions, conversions⟩ := b.lower_keeps op
  refine ⟨?_, ?_, ?_⟩
  · intro h recorded found
    show (b.lower op).1.definitions[h.index]?.bind Definition.operation? = some recorded
    rw [definitions]
    exact found
  · intro h members found
    show (b.lower op).1.definitions[h.index]?.bind Definition.members? = some members
    rw [definitions]
    exact found
  · simp only [conversion?, conversions]

theorem offers_new (settings : Settings) (conversions : Conversions) :
    Offers (Builder.new settings conversions) conversions.find? :=
  conversions.get?_table

end Program.Builder

instance : LawfulEvaluator Program.Builder where
  exclusive := by
    intro b h op found
    obtain ⟨definition, place, recorded⟩ := Option.bind_eq_some_iff.1 found
    cases definition with
    | computed identifier op => simp [arrayMembers?, place, Program.Definition.members?]
    | grouped name members => cases recorded
  addOperation_extends b op := (b.lower_extends op).trans (Program.Builder.push_extends _ _)
  addOperation_recorded b op := by
    simp [addOperation, operation?, Program.Builder.operation?, Program.Builder.push,
      Program.Definition.operation?]
  addArray_extends b name members := b.push_extends _
  addArray_recorded b name members := by
    simp [addArray, arrayMembers?, Program.Builder.push, Program.Definition.members?]

end FrameGraph
