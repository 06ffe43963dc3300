/-
  FrameGraph.Proofs.Compile.Requests: what a back end is asked to record.

  A back end takes requests for operations and for groups, and hands out a handle for each
  (`Request.sendAll`). Asking a lawful back end, each handle that it has handed out leads to an
  operation or to a group and never to both (`issued_sendAll`), and further requests do not
  change where it leads (`Issued.stays`): lawful back ends are steady (`steady`).

  Two back ends are indistinct to a node if they give the same answers and the same handles,
  and go on doing so (`Indistinct`). The two back ends are: after the same requests they hold
  the same table (`Aligned`).
-/

import FrameGraph.Proofs.Compile.Recording
import Mathlib.Data.List.Induction

namespace FrameGraph

open Evaluator (addOperation addArray operation? arrayMembers? conversion?)

inductive Request where
  | operation (op : Operation)
  | group (name : String) (members : List Handle)

variable {ε ε' : Type} [Evaluator ε] [Evaluator ε']

namespace Request

def operation? : Request → Option Operation
  | operation op => some op
  | group .. => none

/-- The kinds of the operations that are asked for. -/
def kinds (rs : List Request) : List OperationKind := (rs.filterMap operation?).map Operation.kind

theorem kinds_append (rs more : List Request) : kinds (rs ++ more) = kinds rs ++ kinds more := by
  rw [kinds, List.filterMap_append, List.map_append]
  rfl

def send (b : ε) : Request → ε × Handle
  | operation op => addOperation b op
  | group name members => addArray b name members

/-- Requests one after another, and the handles that were handed out for them. -/
def sendAll (b : ε) : List Request → ε × List Handle
  | [] => (b, [])
  | r :: rs =>
    let (next, h) := r.send b
    let (last, hs) := sendAll next rs
    (last, h :: hs)

theorem sendAll_append (b : ε) (rs more : List Request) :
    sendAll b (rs ++ more)
      = ((sendAll (sendAll b rs).1 more).1, (sendAll b rs).2 ++ (sendAll (sendAll b rs).1 more).2) := by
  induction rs generalizing b with
  | nil => rfl
  | cons r rs ih => simp only [List.cons_append, sendAll, ih]

theorem sendAll_concat (b : ε) (rs : List Request) (r : Request) :
    (sendAll b (rs ++ [r])).1 = (r.send (sendAll b rs).1).1 := by
  rw [sendAll_append]
  rfl

theorem sendAll_drop (b : ε) (rs : List Request) (count : Nat) :
    (sendAll b rs).1 = (sendAll (sendAll b (rs.take count)).1 (rs.drop count)).1 := by
  have whole := sendAll_append b (rs.take count) (rs.drop count)
  rw [List.take_append_drop] at whole
  rw [whole]

/-- What each request preserves holds after any requests. -/
theorem sendAll_induct {motive : ε → List Request → Prop} {b : ε} (start : motive b [])
    (step : ∀ c rs r, motive c rs → motive (r.send c).1 (rs ++ [r])) (rs : List Request) :
    motive (sendAll b rs).1 rs := by
  induction rs using List.reverseRecOn with
  | nil => exact start
  | append_singleton rs r ih =>
    rw [sendAll_concat]
    exact step _ rs r ih

variable [LawfulEvaluator ε]

theorem send_extends (b : ε) (r : Request) : Extends b (r.send b).1 := by
  cases r with
  | operation op => exact LawfulEvaluator.addOperation_extends b op
  | group name members => exact LawfulEvaluator.addArray_extends b name members

theorem sendAll_extends (b : ε) (rs : List Request) : Extends b (sendAll b rs).1 := by
  induction rs generalizing b with
  | nil => exact .refl b
  | cons r rs ih => exact (send_extends b r).trans (ih _)

end Request

open Request (sendAll)

/-! ## Handles that were handed out -/

/-- The handle leads to an operation or to a group, and not to both. -/
def Issued (b : ε) (h : Handle) : Prop :=
  (∃ op, operation? b h = some op ∧ arrayMembers? b h = none)
    ∨ ∃ members, arrayMembers? b h = some members ∧ operation? b h = none

section Lawful

variable [LawfulEvaluator ε] {b b' : ε} {h : Handle}

theorem issued_of_operation {op : Operation} (found : operation? b h = some op) : Issued b h :=
  .inl ⟨op, found, LawfulEvaluator.exclusive found⟩

theorem issued_of_members {members : List Handle} (found : arrayMembers? b h = some members) : Issued b h := by
  refine .inr ⟨members, found, ?_⟩
  cases op : operation? b h with
  | none => rfl
  | some op =>
    rw [LawfulEvaluator.exclusive op] at found
    cases found

/-- A back end that grows leaves a handle as it was. -/
theorem Issued.stays (issued : Issued b h) (grown : Extends b b') :
    operation? b' h = operation? b h ∧ arrayMembers? b' h = arrayMembers? b h := by
  rcases issued with ⟨op, found, none⟩ | ⟨members, found, none⟩
  · have later := grown.operation found
    exact ⟨later.trans found.symm, (LawfulEvaluator.exclusive later).trans none.symm⟩
  · have later := grown.members found
    rcases issued_of_members later with ⟨_, _, no⟩ | ⟨_, _, no⟩
    · rw [later] at no
      cases no
    · exact ⟨no.trans none.symm, later.trans found.symm⟩

theorem Issued.mono (issued : Issued b h) (grown : Extends b b') : Issued b' h := by
  rcases issued with ⟨op, found, -⟩ | ⟨members, found, -⟩
  · exact issued_of_operation (grown.operation found)
  · exact issued_of_members (grown.members found)

theorem issued_send (b : ε) (r : Request) : Issued (r.send b).1 (r.send b).2 := by
  cases r with
  | operation op => exact issued_of_operation (LawfulEvaluator.addOperation_recorded b op)
  | group name members => exact issued_of_members (LawfulEvaluator.addArray_recorded b name members)

theorem issued_sendAll (b : ε) (rs : List Request) : ∀ h ∈ (sendAll b rs).2, Issued (sendAll b rs).1 h := by
  induction rs generalizing b with
  | nil =>
    intro h none
    cases none
  | cons r rs ih =>
    intro h member
    rcases List.mem_cons.1 member with rfl | later
    · exact (issued_send b r).mono (Request.sendAll_extends _ rs)
    · exact ih _ h later

/-- Whatever is asked of a back end, each handle that it hands out leads to an operation or to a
group, and where it leads does not change with further requests. -/
structure Steady (b : ε) : Prop where
  issued : ∀ rs, ∀ h ∈ (sendAll b rs).2, Issued (sendAll b rs).1 h
  stays : ∀ rs later, ∀ h ∈ (sendAll b rs).2,
    operation? (sendAll b (rs ++ later)).1 h = operation? (sendAll b rs).1 h
      ∧ arrayMembers? (sendAll b (rs ++ later)).1 h = arrayMembers? (sendAll b rs).1 h

theorem steady (b : ε) : Steady b where
  issued := issued_sendAll b
  stays rs later h handed := by
    have grown : Extends (sendAll b rs).1 (sendAll b (rs ++ later)).1 := by
      rw [Request.sendAll_append]
      exact Request.sendAll_extends _ later
    exact (issued_sendAll b rs h handed).stays grown

end Lawful

/-! ## Back ends that a node cannot tell apart -/

structure Indistinct (related : ε → ε' → Prop) : Prop where
  operation : ∀ {b c}, related b c → ∀ h, operation? b h = operation? c h
  members : ∀ {b c}, related b c → ∀ h, arrayMembers? b h = arrayMembers? c h
  conversion : ∀ {b c}, related b c → conversion? b = conversion? c
  send : ∀ {b c}, related b c → ∀ r : Request, (r.send b).2 = (r.send c).2 ∧ related (r.send b).1 (r.send c).1

theorem indistinct_eq : Indistinct (@Eq ε) where
  operation same h := by rw [same]
  members same h := by rw [same]
  conversion same := by rw [same]
  send same r := by simp [same]

theorem Indistinct.sendAll {related : ε → ε' → Prop} (alike : Indistinct related) {b : ε} {c : ε'}
    (start : related b c) (rs : List Request) :
    (sendAll b rs).2 = (Request.sendAll c rs).2 ∧ related (Request.sendAll b rs).1 (Request.sendAll c rs).1 := by
  induction rs generalizing b c with
  | nil => exact ⟨rfl, start⟩
  | cons r rs ih =>
    obtain ⟨handle, next⟩ := alike.send start r
    obtain ⟨handles, last⟩ := ih next
    exact ⟨by simp only [Request.sendAll, handle, handles], last⟩

/-- Both back ends got the same requests since they were fresh. -/
def AfterSame (start : ε) (start' : ε') (b : ε) (c : ε') : Prop :=
  ∃ rs, b = (sendAll start rs).1 ∧ c = (sendAll start' rs).1

theorem afterSame_start (start : ε) (start' : ε') : AfterSame start start' start start' := ⟨[], rfl, rfl⟩

theorem Indistinct.afterSame {related : ε → ε' → Prop} (alike : Indistinct related) {start : ε} {start' : ε'}
    (first : related start start') : Indistinct (AfterSame start start') := by
  have holds : ∀ {b c}, AfterSame start start' b c → related b c := by
    intro b c same
    obtain ⟨rs, rfl, rfl⟩ := same
    exact (alike.sendAll first rs).2
  refine ⟨fun same => alike.operation (holds same), fun same => alike.members (holds same),
    fun same => alike.conversion (holds same), fun same r => ⟨(alike.send (holds same) r).1, ?_⟩⟩
  obtain ⟨rs, rfl, rfl⟩ := same
  exact ⟨rs ++ [r], (Request.sendAll_concat ..).symm, (Request.sendAll_concat ..).symm⟩

/-! ## The two back ends -/

/-- The table of a pipeline builder and that of a program builder say the same. -/
structure Aligned (b : Pipeline.Builder) (c : Program.Builder) : Prop where
  size : b.entries.size = c.definitions.size
  conversions : b.conversions = c.conversions
  entries : ∀ i : Nat,
    b.entries[i]?.bind Pipeline.Entry.operation? = c.definitions[i]?.bind Program.Definition.operation?
    ∧ b.entries[i]?.bind Pipeline.Entry.members? = c.definitions[i]?.bind Program.Definition.members?

theorem aligned_offering (conversions : ConversionTable) (trace : Bool) (settings : Settings) :
    Aligned (.offering conversions trace) (.offering settings conversions) :=
  ⟨rfl, rfl, fun _ => ⟨rfl, rfl⟩⟩

theorem Aligned.push {b : Pipeline.Builder} {c : Program.Builder} (h : Aligned b c) {e : Pipeline.Entry}
    {d : Program.Definition} (operation : e.operation? = d.operation?) (members : e.members? = d.members?) :
    (b.push e).2 = (c.push d).2 ∧ Aligned (b.push e).1 (c.push d).1 := by
  refine ⟨by simp only [Pipeline.Builder.push, Program.Builder.push, h.size], ?_, h.conversions, fun i => ?_⟩
  · simp only [Pipeline.Builder.push, Program.Builder.push, Array.size_push, h.size]
  · simp only [Pipeline.Builder.push, Program.Builder.push, Array.getElem?_push, h.size]
    split
    · exact ⟨operation, members⟩
    · exact h.entries i

/-- What lowering writes besides the table is nothing that a node could ask for. -/
theorem Aligned.lower {b : Pipeline.Builder} {c : Program.Builder} (h : Aligned b c) (op : Operation) :
    Aligned b (c.lower op).1 := by
  obtain ⟨definitions, conversions⟩ := c.lower_keeps op
  exact ⟨by rw [h.size, definitions], by rw [h.conversions, conversions], by rw [definitions]; exact h.entries⟩

theorem indistinct_aligned : Indistinct Aligned where
  operation h handle := (h.entries handle.index).1
  members h handle := (h.entries handle.index).2
  conversion h := by
    funext source target
    simp only [conversion?, h.conversions]
  send h r := by
    cases r with
    | operation op => exact (h.lower op).push rfl rfl
    | group name members => exact h.push rfl rfl

end FrameGraph
