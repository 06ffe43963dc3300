/-
  FrameGraph.Proofs.Compile.Expressions: what the text of a statement tells of its operation.

  An operation is written in one of a few forms (`Form`): the name of a uniform, the call of a
  vector, a sum, a sample, an assignment to the color, or a call that names the kind. What a form
  opens with tells it from the others (`Phrased.opening`), except for a sum, which is shorter than
  anything else that is written of two operands (`Phrased.sum_apart`). So operations of one type on
  the same operands are told apart by their statements, up to what the form leaves out
  (`expression?_eq_iff`). A call leaves out all but the name of the kind: two elements of an array
  that is only known at run time are read by the same expression
  (`two_elements_are_read_alike`).
-/

import Mathlib.Data.List.Basic
import FrameGraph.Proofs.Compile.Artifacts
import FrameGraph.Proofs.Compile.Cycles
import FrameGraph.Proofs.Compile.Forms
import FrameGraph.Proofs.Compile.Statements
import FrameGraph.Proofs.Store.Runs

namespace FrameGraph

open Request (sendAll)

theorem Live.issued {ε : Type} [Evaluator ε] [LawfulEvaluator ε] {b : ε} {v : Handle} (live : Live b v) :
    Issued b v := by
  cases live with
  | operation found => exact issued_of_operation found
  | group found => exact issued_of_members found

/-! ## Forms of expressions -/

inductive Program.Form where
  | uniform
  | vector
  | sum
  | sample
  | color
  | call
  deriving DecidableEq, Repr

/-- The form that operations of a kind are written in. Samplers and varyings are not written. -/
def OperationKind.form? : OperationKind → Option Program.Form
  | property _ => some .uniform
  | sampler _ | varying _ => none
  | construct => some .vector
  | add => some .sum
  | sample2D => some .sample
  | fragmentColor => some .color
  | _ => some .call

/-- Kinds that are written alike: they are the same, or differ in the index of an element. -/
inductive OperationKind.Alike : OperationKind → OperationKind → Prop
  | same (k : OperationKind) : Alike k k
  | element (i j : Nat) : Alike (selectElement i) (selectElement j)

/-- A call tells everything but the index of an element. -/
theorem OperationKind.alike_of_name {k k' : OperationKind} (call : k.form? = some .call)
    (call' : k'.form? = some .call) (same : k.name = k'.name) : k.Alike k' := by
  -- The kinds are the same, both read an element, or their names differ.
  cases k <;> cases call <;> cases k' <;> cases call' <;> first
    | exact .same _
    | exact .element _ _
    | simp [name] at same

namespace Program

/-- The form of an expression by its first letter, unless it is a sum. -/
def Form.opening : Char → Form
  | 'u' => uniform
  | 'v' => vector
  | 't' => sample
  | 'g' => color
  | _ => call

def opening? (text : String) : Option Form := text.toList.head?.map Form.opening

theorem opening?_append {text : String} {f : Form} (h : opening? text = some f) (rest : String) :
    opening? (text ++ rest) = some f := by
  obtain ⟨c, first, rfl⟩ := Option.map_eq_some_iff.1 h
  rw [opening?, String.toList_append, List.head?_append, first]
  rfl

theorem opening?_name {k : OperationKind} (call : k.form? = some .call) : opening? k.name = some .call := by
  cases k <;> cases call <;> simp only [OperationKind.name] <;> rfl

namespace Builder

variable {b b' : Builder} {op op' : Operation} {body : String}

/-! ## One operation -/

/-- The expression that the statement of an operation has, if it has one. -/
def expression? (b : Builder) (op : Operation) : Option String :=
  (b.statement? op (b.texts op)).map Statement.body

/-- An expression by its form. -/
inductive Phrased (b : Builder) (op : Operation) : Form → String → Prop
  | uniform {name : String} : op.kind = .property name → Phrased b op .uniform (b.symbol "u" name)
  | vector (source : Option String) : op.kind = .construct →
    Phrased b op .vector (constructBody op.type.base ((b.texts op).getD 0 "") source)
  | sum : op.kind = .add → Phrased b op .sum ((b.texts op).getD 0 "" ++ " + " ++ (b.texts op).getD 1 "")
  | sample : op.kind = .sample2D → Phrased b op .sample ("texture2D(" ++ (b.texts op).getD 0 "" ++ ", "
      ++ (if op.operands.length > 1 then (b.texts op).getD 1 "" else b.settings.texcoord) ++ ")")
  | color : op.kind = .fragmentColor → Phrased b op .color ("gl_FragColor = " ++ (b.texts op).getD 0 "")
  | call : op.kind.form? = some .call →
    Phrased b op .call (op.kind.name ++ "(" ++ ", ".intercalate (b.texts op) ++ ")")

/-- An operation of a kind that has a form is written in that form. -/
theorem expression?_phrased {f : Form} (form : op.kind.form? = some f) :
    ∃ body, b.expression? op = some body ∧ b.Phrased op f body := by
  unfold expression? statement?
  cases kind : op.kind <;> rw [kind] at form <;> cases form
  case property name => exact ⟨_, rfl, .uniform kind⟩
  case construct => exact ⟨_, rfl, .vector _ kind⟩
  case add => exact ⟨_, rfl, .sum kind⟩
  case sample2D => exact ⟨_, rfl, .sample kind⟩
  case fragmentColor => exact ⟨_, rfl, .color kind⟩
  all_goals exact ⟨_, rfl, kind ▸ .call (by rw [kind]; rfl)⟩

/-- Operations that are not written have no form. -/
theorem phrased_of_expression? (written : b.expression? op = some body) :
    ∃ f, op.kind.form? = some f ∧ b.Phrased op f body := by
  cases form : op.kind.form? with
  | none =>
    unfold expression? statement? at written
    cases kind : op.kind <;> rw [kind] at form written <;> cases form <;> cases written
  | some f =>
    obtain ⟨body', written', phrased⟩ := b.expression?_phrased form
    cases written.symm.trans written'
    exact ⟨f, rfl, phrased⟩

/-! ## Two operations -/

theorem Phrased.opening {f : Form} (h : b.Phrased op f body) (formed : op.Formed) (other : f ≠ .sum) :
    opening? body = some f := by
  cases h with
  | uniform kind => exact opening?_append (opening?_append (opening?_append (opening?_append rfl _) _) _) _
  | vector source kind =>
    rw [Operation.Formed, kind] at formed
    have base : opening? op.type.base = some .vector := by
      rcases List.mem_cons.1 formed.2 with same | rest
      · rw [same]; rfl
      · rcases List.mem_cons.1 rest with same | rest
        · rw [same]; rfl
        · rw [List.mem_singleton.1 rest]; rfl
    exact opening?_append (opening?_append (opening?_append (opening?_append base _) _) _) _
  | sum => exact absurd rfl other
  | sample => exact opening?_append (opening?_append (opening?_append (opening?_append rfl _) _) _) _
  | color => exact opening?_append rfl _
  | call named => exact opening?_append (opening?_append (opening?_append (opening?_name named) _) _) _

/-- Any other form that takes two operands is longer than their sum. -/
theorem Phrased.sum_apart {f : Form} (formed : op.Formed) (add : op.kind = .add) (h : b.Phrased op' f body)
    (formed' : op'.Formed) (operands : op.operands = op'.operands) (other : f ≠ .sum) :
    (b.texts op).getD 0 "" ++ " + " ++ (b.texts op).getD 1 "" ≠ body := by
  have two : op'.operands.length = 2 := by
    rw [Operation.Formed, add] at formed
    rw [← operands]
    exact formed
  have same : b.texts op = b.texts op' := by rw [texts, texts, operands]
  obtain ⟨x, y, pair⟩ : ∃ x y, b.texts op' = [x, y] := List.length_eq_two.1 ((List.length_map _).trans two)
  intro written
  have long := congrArg String.length written
  have plus : " + ".length = 3 := rfl
  have comma : ", ".length = 2 := rfl
  have close : ")".length = 1 := rfl
  rw [same] at long
  -- Uniforms, vectors and colors do not have two operands, and the other forms add more text to them.
  cases h with
  | uniform kind =>
    rw [Operation.Formed, kind] at formed'
    exact absurd (formed'.symm.trans two) (by decide)
  | vector source kind =>
    rw [Operation.Formed, kind] at formed'
    exact absurd (formed'.1.symm.trans two) (by decide)
  | sum => exact other rfl
  | sample kind =>
    have begin : "texture2D(".length = 10 := rfl
    rw [if_pos (by rw [two]; decide)] at long
    simp only [String.length_append, plus, comma, close, begin] at long
    omega
  | color kind =>
    rw [Operation.Formed, kind] at formed'
    exact absurd (formed'.symm.trans two) (by decide)
  | call named =>
    have begin : "(".length = 1 := rfl
    have listed : ", ".intercalate [x, y] = x ++ ", " ++ y := rfl
    rw [pair, listed] at long
    simp only [String.length_append, plus, comma, close, begin, List.getD_cons_zero, List.getD_cons_succ] at long
    omega

theorem Phrased.same_form {f f' : Form} (formed : op.Formed) (formed' : op'.Formed)
    (operands : op.operands = op'.operands) (h : b.Phrased op f body) (h' : b.Phrased op' f' body) : f = f' := by
  -- A sum may open with anything, since its operands do.
  by_cases sum : f = .sum
  · subst sum
    by_contra other
    cases h with
    | sum kind => exact h'.sum_apart formed kind formed' operands (Ne.symm other) rfl
  · by_cases sum' : f' = .sum
    · subst sum'
      cases h' with
      | sum kind => exact absurd rfl (h.sum_apart formed' kind formed operands.symm sum)
    · exact Option.some.inj ((h.opening formed sum).symm.trans (h'.opening formed' sum'))

/-- Two expressions of one form are different unless they are written alike. -/
theorem Phrased.alike {f : Form} {body' : String} (h : b.Phrased op f body) (h' : b.Phrased op' f body')
    (operands : op.operands = op'.operands) (same : body = body') : op.kind.Alike op'.kind := by
  have texts : b.texts op = b.texts op' := by rw [Builder.texts, Builder.texts, operands]
  have both {k : OperationKind} (kind : op.kind = k) (kind' : op'.kind = k) : op.kind.Alike op'.kind := by
    rw [kind, kind']
    exact .same k
  cases h with
  | uniform kind =>
    cases h' with
    | uniform kind' =>
      obtain rfl := (String.append_right_inj _).1 same
      exact both kind kind'
  | vector source kind =>
    cases h' with
    | vector source' kind' => exact both kind kind'
  | sum kind =>
    cases h' with
    | sum kind' => exact both kind kind'
  | sample kind =>
    cases h' with
    | sample kind' => exact both kind kind'
  | color kind =>
    cases h' with
    | color kind' => exact both kind kind'
  | call named =>
    cases h' with
    | call named' =>
      rw [texts, String.append_left_inj, String.append_left_inj, String.append_left_inj] at same
      exact OperationKind.alike_of_name named named' same

theorem expression?_alike (alike : op.kind.Alike op'.kind) (operands : op.operands = op'.operands)
    (type : op.type = op'.type) : b.expression? op = b.expression? op' := by
  obtain ⟨kind, name, type, operands⟩ := op
  obtain ⟨kind', name', type', operands'⟩ := op'
  subst operands type
  cases alike with
  | same k => rfl
  | element i j => rfl

/-- What is written of two operations of one type on the same operands is the same only if they are
written alike. -/
theorem expression?_eq_iff {body' : String} (formed : op.Formed) (formed' : op'.Formed)
    (operands : op.operands = op'.operands) (type : op.type = op'.type) (written : b.expression? op = some body)
    (written' : b.expression? op' = some body') : body = body' ↔ op.kind.Alike op'.kind := by
  refine ⟨fun same => ?_, fun alike => ?_⟩
  · obtain ⟨f, form, phrased⟩ := phrased_of_expression? written
    obtain ⟨f', form', phrased'⟩ := phrased_of_expression? written'
    subst same
    obtain rfl := phrased.same_form formed formed' operands phrased'
    exact phrased.alike phrased' operands rfl
  · rw [expression?_alike alike operands type] at written
    exact Option.some.inj (written.symm.trans written')

/-! ## Statements and expressions -/

theorem expression?_congr (settings : b'.settings = b.settings) (texts : b'.texts op = b.texts op)
    (base : b'.operandBase? op 0 = b.operandBase? op 0) : b'.expression? op = b.expression? op := by
  unfold expression? statement?
  rw [texts, base, settings]
  cases op.kind with
  | property name => exact congrArg (fun s : Settings => some ("u" ++ "_" ++ s.material ++ "_" ++ name)) settings
  | _ => rfl

theorem stated_iff : (∃ t, b.statement? op (b.texts op) = some t) ↔ ∃ f, op.kind.form? = some f := by
  constructor
  · intro stated
    obtain ⟨t, stated⟩ := stated
    have written : b.expression? op = some t.body := by rw [expression?, stated, Option.map_some]
    obtain ⟨f, form, -⟩ := phrased_of_expression? written
    exact ⟨f, form⟩
  · intro formed
    obtain ⟨f, form⟩ := formed
    obtain ⟨body, written, -⟩ := b.expression?_phrased form
    obtain ⟨t, stated, -⟩ := Option.map_eq_some_iff.1 written
    exact ⟨t, stated⟩

/-- The request for a value has added one statement to those before it. -/
def Wrote (start : Builder) (rs : List Request) (h : Handle) (t : Statement) : Prop :=
  (sendAll start (rs.take (h.index + 1))).1.statements = (sendAll start (rs.take h.index)).1.statements ++ [t]

section Start

variable {settings : Settings} {conversions : ConversionTable} {rs : List Request}
  (careful : Careful (Builder.offering settings conversions) rs)
include careful

/-- When it is an operation's turn, what it is made of is what it is to the end. -/
theorem expression?_take {i : Nat} (asked : rs[i]? = some (.operation op)) :
    (sendAll (Builder.offering settings conversions) (rs.take i)).1.expression? op
      = (sendAll (Builder.offering settings conversions) rs).1.expression? op := by
  have live := careful.live_at asked
  have keeps := take_keeps (Builder.offering settings conversions) rs i
  have grows : Extends (sendAll (Builder.offering settings conversions) (rs.take i)).1
      (sendAll (Builder.offering settings conversions) rs).1 := by
    rw [Request.sendAll_drop _ rs i]
    exact Request.sendAll_extends _ _
  refine (expression?_congr keeps.settings (keeps.texts fun v member => identifier?_live (live v member)) ?_).symm
  unfold operandBase?
  cases first : op.operands[0]? with
  | none => rfl
  | some v =>
    have stays := ((live v (List.mem_of_getElem? first)).issued.stays grows).1
    exact congrArg (Option.map fun source : Operation => source.type.base) stays

theorem wrote_iff {h : Handle} {t : Statement} (asked : rs[h.index]? = some (.operation op)) :
    Wrote (.offering settings conversions) rs h t
      ↔ (sendAll (Builder.offering settings conversions) (rs.take h.index)).1.statement? op
        ((sendAll (Builder.offering settings conversions) (rs.take h.index)).1.texts op) = some t := by
  rw [Wrote, statements_step careful asked, List.append_cancel_left_eq]
  exact Option.toList_eq_singleton_iff

end Start

/-! ## Programs -/

/-- What the statements of a program tell of its operations, when a builder that started as `start`
was asked for `rs`. -/
structure Tells (start b : Builder) (rs : List Request) : Prop where
  sent : b = (sendAll start rs).1
  recorded : ∀ h, b.operation? h = rs[h.index]?.bind Request.operation?
  written : ∀ h op, b.operation? h = some op → ((∃ t, start.Wrote rs h t) ↔ ∃ f, op.kind.form? = some f)
  told : ∀ h h' op op' t t', b.operation? h = some op → b.operation? h' = some op' → op.operands = op'.operands →
    op.type = op'.type → start.Wrote rs h t → start.Wrote rs h' t' → (t.body = t'.body ↔ op.kind.Alike op'.kind)

theorem tells {settings : Settings} {conversions : ConversionTable} {rs : List Request}
    (careful : Careful (Builder.offering settings conversions) rs) (formed : ∀ h op,
      (sendAll (Builder.offering settings conversions) rs).1.operation? h = some op → op.Formed) :
    Tells (.offering settings conversions) (sendAll (Builder.offering settings conversions) rs).1 rs := by
  have tabled := tabled_sendAll settings conversions rs
  have expressed : ∀ h op t, (sendAll (Builder.offering settings conversions) rs).1.operation? h = some op →
      Wrote (.offering settings conversions) rs h t →
      (sendAll (Builder.offering settings conversions) rs).1.expression? op = some t.body := by
    intro h op t recorded wrote
    have asked := tabled.asked recorded
    rw [← expression?_take careful asked, expression?, (wrote_iff careful asked).1 wrote]
    rfl
  refine ⟨rfl, tabled.2, fun h op recorded => ?_, ?_⟩
  · simp only [wrote_iff careful (tabled.asked recorded)]
    exact stated_iff
  · intro h h' op op' t t' recorded recorded' operands type wrote wrote'
    exact expression?_eq_iff (formed h op recorded) (formed h' op' recorded') operands type
      (expressed h op t recorded wrote) (expressed h' op' t' recorded' wrote')

end Builder

end Program

namespace Graph

/-- Whatever a program comes of, statements for operations of one type on the same operands are told
apart by what they compute, but for the elements of an array. -/
theorem session_expressions {start g : Graph} (h : Start start) {edits : List Edit} (ran : Edit.run edits start = .ok g)
    {s : Settings} {source : Program.Source} (made : (s.generateMaterial g).result = .ok source) :
    ∃ b rs, source = Program.Builder.source b ∧ b = (g.evaluate (Program.Builder.standard s)).backend
      ∧ (Program.Builder.standard s).Tells b rs := by
  obtain ⟨sound, sized⟩ := Start.after h ran
  obtain ⟨-, -, rfl⟩ := generateMaterial_ok_iff.1 made
  have offers := Program.Builder.offers_new s .material
  obtain ⟨rs, sent, careful, -⟩ := evaluate_careful sound sized offers
  obtain ⟨asked, same, formed⟩ := g.evaluate_asks (converts_material offers)
  have each : ∀ v op, (sendAll (Program.Builder.new s .material) rs).1.operation? v = some op → op.Formed := by
    intro v op recorded
    rw [← sent, same] at recorded
    exact formed op (List.mem_of_getElem? (Program.Builder.Tabled.asked (Program.Builder.tabled_sendAll ..) recorded))
  refine ⟨_, rs, rfl, rfl, ?_⟩
  rw [Program.Builder.standard, sent]
  exact Program.Builder.tells careful each

/-- The first two elements of an array that the material is given, added up. -/
def twoElements : List Edit :=
  [.addNode (.property "xs" (.array Base.vec4)) .origin, .addNode (.newSelect (.scalar Base.vec4) 0) .origin,
    .addNode (.newSelect (.scalar Base.vec4) 1) .origin, .addNode .newAdd .origin, .addNode .materialOutput .origin,
    .connect ⟨1⟩ ⟨3⟩, .connect ⟨1⟩ ⟨6⟩, .connect ⟨4⟩ ⟨9⟩, .connect ⟨7⟩ ⟨10⟩, .connect ⟨11⟩ ⟨13⟩,
    .setTerminal ⟨12⟩]

theorem session_expressions_elements : Start (.new .zero untitled)
    ∧ ∃ g source, Edit.run twoElements (.new .zero untitled) = .ok g
      ∧ (Settings.standard.generateMaterial g).result = .ok source
      ∧ ∃ b rs, source = Program.Builder.source b ∧ b = (g.evaluate (Program.Builder.standard .standard)).backend
        ∧ (Program.Builder.standard .standard).Tells b rs := by
  have within : (Edit.run twoElements (.new .zero untitled)).map (fun g => (decide (g.nodes.size < 6),
        (g.evaluateWithin 6 (Program.Builder.standard .standard)).map fun e => (e.result, e.backend.taken)))
      = .ok (true, some (.ok (), false)) := by decide
  obtain ⟨g, ran, made⟩ := generates_within 6 within
  exact ⟨.new _ _, g, _, ran, made, session_expressions (.new _ _) ran made⟩

/-- The kinds of the elements differ, and what is written of them does not. -/
theorem two_elements_are_read_alike : (Edit.run twoElements (.new .zero untitled)).map (fun g =>
      ((g.evaluate (Program.Builder.standard .standard)).result,
        (g.evaluate (Program.Builder.standard .standard)).backend.operation? ⟨1⟩,
        (g.evaluate (Program.Builder.standard .standard)).backend.operation? ⟨2⟩,
        (g.evaluate (Program.Builder.standard .standard)).backend.statements.map Program.Statement.line))
    = .ok (.ok (), some ⟨.selectElement 0, "Select 0 of xs", .scalar Base.vec4, [⟨0⟩]⟩,
        some ⟨.selectElement 1, "Select 1 of xs", .scalar Base.vec4, [⟨0⟩]⟩,
        ["\tvec4 v0 = u_Material_xs;", "\tvec4 v1 = SelectElement(v0);", "\tvec4 v2 = SelectElement(v0);",
          "\tvec4 v3 = v1 + v2;", "\tgl_FragColor = v3;"]) :=
  map_evaluate_within (f := fun e : Evaluation Program.Builder => (e.result, e.backend.operation? ⟨1⟩,
    e.backend.operation? ⟨2⟩, e.backend.statements.map Program.Statement.line)) 6 rfl

end Graph

end FrameGraph
