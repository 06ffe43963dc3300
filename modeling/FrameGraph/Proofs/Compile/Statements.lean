/-
  FrameGraph.Proofs.Compile.Statements: each request adds its statement, and names stay.

  Lowering an operation writes one statement or none, and gives its value a name (`Named`). Names
  keep their meaning whatever is asked for later (`Keeps`), and a value is found in the place of its
  request (`Tabled`). So a program consists of the statements of the operations that were recorded,
  each as it was written when the operation's turn came, with the names that its operands have to
  the end (`States`, `stated_sendAll`, `statements_recorded`).
-/

import Mathlib.Data.List.Basic
import FrameGraph.Proofs.Compile.Careful
import FrameGraph.Proofs.Compile.Declarations

namespace FrameGraph

open Evaluator (addOperation)
open Request (sendAll)

namespace Program.Builder

variable {b b' : Builder} {op : Operation} {rs : List Request}

/-! ## One operation -/

/-- What lowering an operation writes, and what its value is called from then on. -/
inductive Named (b : Builder) (op : Operation) (after : Builder) (text : String) : Prop
  | result (body : String) : text = resultName b.definitions.size →
    after.statements = b.statements ++ [⟨some (op.type.base, text), body⟩] → Named b op after text
  | sampler {name : String} : op.kind = .sampler name → text = b.symbol "s" name → text ∈ after.declarations.keys →
    after.statements = b.statements → Named b op after text
  | varying : op.kind = .varying text → after.statements = b.statements → Named b op after text
  | color (body : String) : op.kind = .fragmentColor → after.statements = b.statements ++ [⟨none, body⟩] →
    Named b op after text

theorem declare_statements (b : Builder) (name line : String) : (b.declare name line).statements = b.statements := by
  unfold declare
  split <;> rfl

theorem declareSampler_declared (b : Builder) (name : String) : name ∈ (b.declareSampler name).declarations.keys := by
  unfold declareSampler
  split
  · rename_i known
    exact Table.contains_iff.1 known
  · show name ∈ (b.declare name _).declarations.keys
    rw [declare_keys]
    split
    · assumption
    · exact List.mem_append_right _ (List.mem_singleton_self name)

theorem declareSampler_statements (b : Builder) (name : String) :
    (b.declareSampler name).statements = b.statements := by
  unfold declareSampler
  split
  · rfl
  · exact b.declare_statements ..

theorem lower_named (b : Builder) (op : Operation) : b.Named op (b.lower op).1 (b.lower op).2 := by
  unfold lower
  cases kind : op.kind with
  | property name =>
    refine .result (b.symbol "u" name) ?_ ?_
    · show resultName (b.declareUniform _ _).definitions.size = _
      rw [declareUniform, (b.declare_keeps _ _).1]
    · show (b.declareUniform _ _).statements ++ _ = _
      rw [declareUniform, declare_statements]
      rfl
  | sampler name => exact .sampler kind rfl (b.declareSampler_declared _) (b.declareSampler_statements _)
  | varying name => exact .varying kind rfl
  | fragmentColor => exact .color _ kind rfl
  | _ => exact .result _ rfl rfl

theorem Named.statements {after : Builder} {text : String} (h : b.Named op after text) :
    b.statements <+: after.statements := by
  cases h with
  | result _ _ written => exact written ▸ List.prefix_append ..
  | sampler _ _ _ same => exact same ▸ List.prefix_rfl
  | varying _ same => exact same ▸ List.prefix_rfl
  | color _ _ written => exact written ▸ List.prefix_append ..

/-! ## Growing builders -/

/-- Names keep their meaning. -/
structure Keeps (b b' : Builder) : Prop where
  settings : b'.settings = b.settings
  statements : b.statements <+: b'.statements
  keys : b.declarations.keys <+: b'.declarations.keys
  identifiers : ∀ {h : Handle} {text : String}, b.identifier? h = some text → b'.identifier? h = some text

theorem Keeps.refl (b : Builder) : b.Keeps b := ⟨rfl, List.prefix_rfl, List.prefix_rfl, id⟩

theorem Keeps.trans {b'' : Builder} (h : b.Keeps b') (h' : b'.Keeps b'') : b.Keeps b'' :=
  ⟨h'.settings.trans h.settings, h.statements.trans h'.statements, h.keys.trans h'.keys,
    fun known => h'.identifiers (h.identifiers known)⟩

theorem lower_prefix (b : Builder) (op : Operation) : (b.lower op).1.settings = b.settings
    ∧ b.declarations.keys <+: (b.lower op).1.declarations.keys := by
  unfold lower
  cases op.kind with
  | property name => exact b.declare_prefix ..
  | sampler name =>
    show (b.declareSampler _).settings = _ ∧ _ <+: (b.declareSampler _).declarations.keys
    unfold declareSampler
    split
    · exact ⟨rfl, List.prefix_rfl⟩
    · exact b.declare_prefix ..
  | _ => exact ⟨rfl, List.prefix_rfl⟩

theorem push_keeps (b : Builder) (d : Definition) : b.Keeps (b.push d).1 := by
  refine ⟨rfl, List.prefix_rfl, List.prefix_rfl, fun {h text} known => ?_⟩
  obtain ⟨definition, place, rfl⟩ := Option.map_eq_some_iff.1 known
  exact Option.map_eq_some_iff.2 ⟨definition, getElem?_push_of_some place, rfl⟩

theorem send_keeps (b : Builder) (r : Request) : b.Keeps (r.send b).1 := by
  cases r with
  | operation op =>
    obtain ⟨definitions, -⟩ := b.lower_keeps op
    obtain ⟨settings, keys⟩ := b.lower_prefix op
    have lowered : b.Keeps (b.lower op).1 :=
      ⟨settings, (b.lower_named op).statements, keys, fun known => by rwa [identifier?, definitions]⟩
    exact lowered.trans (push_keeps _ _)
  | group name members => exact b.push_keeps _

theorem sendAll_keeps (b : Builder) (rs : List Request) : b.Keeps (sendAll b rs).1 := by
  induction rs generalizing b with
  | nil => exact .refl b
  | cons r rs ih => exact (b.send_keeps r).trans (ih _)

theorem take_keeps (b : Builder) (rs : List Request) (place : Nat) :
    (sendAll b (rs.take place)).1.Keeps (sendAll b rs).1 := by
  rw [Request.sendAll_drop b rs place]
  exact sendAll_keeps _ _

/-! ## Where values are found -/

theorem operation?_send (b : Builder) (r : Request) (h : Handle) : (r.send b).1.operation? h
    = if h.index = b.definitions.size then r.operation? else b.operation? h := by
  cases r with
  | operation op =>
    obtain ⟨definitions, -⟩ := b.lower_keeps op
    show ((b.lower op).1.definitions.push _)[h.index]?.bind Definition.operation? = _
    rw [definitions, Array.getElem?_push]
    split <;> rfl
  | group name members =>
    show (b.definitions.push _)[h.index]?.bind Definition.operation? = _
    rw [Array.getElem?_push]
    split <;> rfl

/-- An operation that is found after a request is the one asked for, in the last place, or was
there before. -/
theorem recorded_send {r : Request} {v : Handle} (found : (r.send b).1.operation? v = some op) :
    v = ⟨b.definitions.size⟩ ∧ r = .operation op ∨ b.operation? v = some op := by
  rw [operation?_send] at found
  split at found
  · rename_i last
    obtain ⟨index⟩ := v
    obtain rfl : index = b.definitions.size := last
    cases r with
    | operation asked =>
      cases found
      exact .inl ⟨rfl, rfl⟩
    | group => cases found
  · exact .inr found

theorem identifier?_record (b : Builder) (op : Operation) :
    (addOperation b op).1.identifier? ⟨b.definitions.size⟩ = some (b.lower op).2 := by
  obtain ⟨definitions, -⟩ := b.lower_keeps op
  show ((b.lower op).1.definitions.push _)[b.definitions.size]?.map Definition.identifier = _
  rw [definitions, Array.getElem?_push_size]
  rfl

/-! ## The statement of an operation -/

/-- The statement of an operation with some texts for its operands, if it needs one. -/
def statement? (b : Builder) (op : Operation) (texts : List String) : Option Statement :=
  let assign (body : String) : Option Statement := some ⟨some (op.type.base, resultName b.definitions.size), body⟩
  match op.kind with
  | .property name => assign (b.symbol "u" name)
  | .sampler _ | .varying _ => none
  | .construct => assign (constructBody op.type.base (texts.getD 0 "") (b.operandBase? op 0))
  | .add => assign (texts.getD 0 "" ++ " + " ++ texts.getD 1 "")
  | .sample2D =>
    let uv := if op.operands.length > 1 then texts.getD 1 "" else b.settings.texcoord
    assign ("texture2D(" ++ texts.getD 0 "" ++ ", " ++ uv ++ ")")
  | .fragmentColor => some ⟨none, "gl_FragColor = " ++ texts.getD 0 ""⟩
  | kind => assign (kind.name ++ "(" ++ ", ".intercalate texts ++ ")")

theorem lower_statements {texts : List String} (operand : ∀ i, b.operand op i = texts.getD i "")
    (list : b.operandList op = ", ".intercalate texts) :
    (b.lower op).1.statements = b.statements ++ (b.statement? op texts).toList := by
  unfold lower statement?
  cases op.kind with
  | property name =>
    show (b.declareUniform _ _).statements ++ [⟨some (_, resultName (b.declareUniform _ _).definitions.size), _⟩] = _
    rw [declareUniform, declare_statements, (b.declare_keeps _ _).1]
    rfl
  | sampler name => exact (b.declareSampler_statements _).trans (List.append_nil _).symm
  | varying name => exact (List.append_nil _).symm
  | construct => simp only [← operand]; rfl
  | add => simp only [← operand]; rfl
  | sample2D => simp only [← operand]; rfl
  | fragmentColor => simp only [← operand]; rfl
  | _ => simp only [← list]; rfl

theorem identifier?_live {h : Handle} (live : Live b h) : ∃ text, b.identifier? h = some text := by
  have known {α : Type} {f : Definition → Option α} {a : α} (found : b.definitions[h.index]?.bind f = some a) :
      ∃ text, b.identifier? h = some text := by
    obtain ⟨d, place, -⟩ := Option.bind_eq_some_iff.1 found
    exact ⟨d.identifier, by rw [identifier?, place]; rfl⟩
  cases live with
  | operation found => exact known found
  | group found => exact known found

/-- What the operands of an operation are called. -/
def texts (b : Builder) (op : Operation) : List String := op.operands.map fun v => (b.identifier? v).getD ""

theorem lower_texts (known : ∀ v ∈ op.operands, ∃ text, b.identifier? v = some text) :
    (b.lower op).1.statements = b.statements ++ (b.statement? op (b.texts op)).toList := by
  refine lower_statements (fun i => ?_) ?_
  · rw [texts, operand, List.getD_eq_getElem?_getD, List.getElem?_map]
    cases op.operands[i]? <;> rfl
  · have each : ∀ v ∈ op.operands, b.identifier? v = some ((b.identifier? v).getD "") := by
      intro v member
      obtain ⟨text, identified⟩ := known v member
      rw [identified]
      rfl
    rw [texts, operandList, List.filterMap_congr each, List.filterMap_eq_map']

/-! ## After some requests -/

theorem size_send (b : Builder) (r : Request) : (r.send b).1.definitions.size = b.definitions.size + 1 := by
  cases r with
  | operation op =>
    obtain ⟨definitions, -⟩ := b.lower_keeps op
    show ((b.lower op).1.definitions.push _).size = _
    rw [definitions, Array.size_push]
  | group name members => exact Array.size_push _

/-- The table holds what was asked for, in that order. -/
def Tabled (b : Builder) (rs : List Request) : Prop :=
  b.definitions.size = rs.length ∧ ∀ h, b.operation? h = rs[h.index]?.bind Request.operation?

theorem Tabled.send (known : b.Tabled rs) (r : Request) : (r.send b).1.Tabled (rs ++ [r]) := by
  obtain ⟨size, recorded⟩ := known
  refine ⟨by rw [size_send, size, List.length_append, List.length_singleton], fun h => ?_⟩
  rw [operation?_send, size, recorded]
  split
  · rename_i last
    rw [last, List.getElem?_concat_length]
    rfl
  · rename_i other
    rcases Nat.lt_or_gt_of_ne other with before | beyond
    · rw [List.getElem?_append_left before]
    · rw [List.getElem?_eq_none (Nat.le_of_lt beyond), List.getElem?_eq_none]
      rw [List.length_append]
      exact beyond

theorem Tabled.asked (known : b.Tabled rs) {h : Handle} (recorded : b.operation? h = some op) :
    rs[h.index]? = some (.operation op) := by
  obtain ⟨r, place, asked⟩ := Option.bind_eq_some_iff.1 ((known.2 h).symm.trans recorded)
  cases r with
  | operation op' =>
    cases asked
    exact place
  | group => cases asked

theorem tabled_sendAll (settings : Settings) (conversions : ConversionTable) (rs : List Request) :
    (sendAll (Builder.offering settings conversions) rs).1.Tabled rs :=
  Request.sendAll_induct (motive := Tabled) ⟨rfl, fun _ => rfl⟩ (fun _ _ r h => h.send r) rs

/-! ## What a program consists of -/

/-- The statement of an operation as it was written when the operation's turn came, with the names
that its operands have to the end. -/
def States (b : Builder) (h : Handle) (op : Operation) (s : Option Statement) : Prop := ∃ before : Builder,
  before.Keeps b ∧ before.definitions.size = h.index ∧ before.statement? op (b.texts op) = s

theorem Keeps.texts (keeps : b.Keeps b') (known : ∀ v ∈ op.operands, ∃ text, b.identifier? v = some text) :
    b'.texts op = b.texts op := by
  refine List.map_congr_left fun v member => ?_
  obtain ⟨text, identified⟩ := known v member
  rw [identified, keeps.identifiers identified]

section Start

variable {settings : Settings} {conversions : ConversionTable} {rs : List Request}
  (careful : Careful (Builder.offering settings conversions) rs)
include careful

/-- The request in some place adds its statement, with the names that its operands have by then. -/
theorem statements_step {i : Nat} (asked : rs[i]? = some (.operation op)) :
    (sendAll (Builder.offering settings conversions) (rs.take (i + 1))).1.statements
      = (sendAll (Builder.offering settings conversions) (rs.take i)).1.statements
        ++ ((sendAll (Builder.offering settings conversions) (rs.take i)).1.statement? op
          ((sendAll (Builder.offering settings conversions) (rs.take i)).1.texts op)).toList := by
  rw [List.take_add_one, asked, Option.toList_some, Request.sendAll_concat]
  exact lower_texts fun v member => identifier?_live (careful.live_at asked v member)

/-- These are the names that they have to the end. -/
theorem statements_take {i : Nat} (asked : rs[i]? = some (.operation op)) :
    ∃ s, (sendAll (Builder.offering settings conversions) rs).1.States ⟨i⟩ op s
      ∧ (sendAll (Builder.offering settings conversions) (rs.take (i + 1))).1.statements
        = (sendAll (Builder.offering settings conversions) (rs.take i)).1.statements ++ s.toList := by
  obtain ⟨inside, -⟩ := List.getElem?_eq_some_iff.1 asked
  obtain ⟨size, -⟩ := tabled_sendAll settings conversions (rs.take i)
  have keeps := take_keeps (Builder.offering settings conversions) rs i
  have known : ∀ v ∈ op.operands, ∃ text,
      (sendAll (Builder.offering settings conversions) (rs.take i)).1.identifier? v = some text :=
    fun v member => identifier?_live (careful.live_at asked v member)
  refine ⟨_, ⟨_, keeps, ?_, rfl⟩, ?_⟩
  · rw [size, List.length_take, Nat.min_eq_left (Nat.le_of_lt inside)]
  · rw [keeps.texts known]
    exact statements_step careful asked

theorem stated_sendAll {h : Handle}
    (recorded : (sendAll (Builder.offering settings conversions) rs).1.operation? h = some op) :
    ∃ s, (sendAll (Builder.offering settings conversions) rs).1.States h op s
      ∧ ∀ t ∈ s, t ∈ (sendAll (Builder.offering settings conversions) rs).1.statements := by
  obtain ⟨s, states, written⟩ := statements_take careful (Tabled.asked (tabled_sendAll ..) recorded)
  refine ⟨s, states, fun t member => ?_⟩
  refine (take_keeps (Builder.offering settings conversions) rs (h.index + 1)).statements.subset ?_
  rw [written]
  exact List.mem_append_right _ (Option.mem_toList.2 member)

/-- By induction on the number of requests, each statement is that of some operation. -/
theorem statements_recorded (i : Nat) {t : Statement}
    (written : t ∈ (sendAll (Builder.offering settings conversions) (rs.take i)).1.statements) : ∃ h op,
    (sendAll (Builder.offering settings conversions) rs).1.operation? h = some op
      ∧ (sendAll (Builder.offering settings conversions) rs).1.States h op (some t) := by
  induction i with
  | zero => cases written
  | succ i ih =>
    cases asked : rs[i]? with
    | none =>
      rw [List.take_add_one, asked, Option.toList_none, List.append_nil] at written
      exact ih written
    | some r =>
      cases r with
      | group name members =>
        rw [List.take_add_one, asked, Option.toList_some, Request.sendAll_concat] at written
        exact ih written
      | operation op =>
        obtain ⟨s, states, grown⟩ := statements_take careful asked
        rw [grown] at written
        rcases List.mem_append.1 written with old | new
        · exact ih old
        · obtain rfl := Option.mem_toList.1 new
          have recorded := (tabled_sendAll settings conversions rs).2 ⟨i⟩
          rw [asked] at recorded
          exact ⟨⟨i⟩, op, recorded, states⟩

end Start

end Program.Builder

end FrameGraph
