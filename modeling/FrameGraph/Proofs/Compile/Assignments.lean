/-
  FrameGraph.Proofs.Compile.Assignments: a program assigns each variable once and reads only
  what is there.

  A value is named after its place in the table, which no two values share; so no variable is
  assigned twice (`Numbered`). When an operation is lowered, each operation that it reads has
  been lowered before: its variable is assigned above, its sampler is declared, or it is an
  attribute (`Refers`). This holds of a builder after any requests that are made of values, and
  such are the requests of an evaluation, whether it succeeds or not (`evaluation_writes`).
-/

import FrameGraph.Proofs.Compile.Cycles
import FrameGraph.Proofs.Compile.Statements
import FrameGraph.Proofs.Notation.Digits

namespace FrameGraph

open Evaluator (addOperation)
open Request (sendAll)

namespace Program

/-! ## Names -/

theorem resultName_injective : Function.Injective Builder.resultName := by
  intro i j same
  have digits := congrArg (fun text => Decimal.natOfDigits text.toList) ((String.append_right_inj "v").1 same)
  simpa [toString, Nat.repr, Decimal.natOfDigits_toDigits] using digits

namespace Builder

variable {b b' : Builder} {op : Operation} {rs : List Request}

/-! ## References -/

/-- The text for the result of an operation, which is read off a variable that is assigned, a
sampler that is declared, or an attribute. -/
inductive Refers (b : Builder) (h : Handle) (source : Operation) (text : String) : Prop
  | result : text = resultName h.index → (∃ s ∈ b.statements, s.result = some (source.type.base, text)) →
    Refers b h source text
  | sampler {name : String} : source.kind = .sampler name → text = b.symbol "s" name → text ∈ b.declarations.keys →
    Refers b h source text
  | varying : source.kind = .varying text → Refers b h source text

theorem Refers.keeps {h : Handle} {source : Operation} {text : String} (refers : b.Refers h source text)
    (keeps : b.Keeps b') : b'.Refers h source text := by
  cases refers with
  | result named assigned =>
    obtain ⟨s, member, typed⟩ := assigned
    exact .result named ⟨s, keeps.statements.subset member, typed⟩
  | sampler kind named declared =>
    exact .sampler kind (by rw [named, symbol, symbol, keeps.settings]) (keeps.keys.subset declared)
  | varying kind => exact .varying kind

/-- Every operation with a result can be referred to. -/
def Referable (b : Builder) : Prop := ∀ h source, b.operation? h = some source → source.kind ≠ .fragmentColor →
  ∃ text, b.identifier? h = some text ∧ b.Refers h source text

theorem Referable.send (h : b.Referable) (r : Request) : (r.send b).1.Referable := by
  intro v source found value
  rcases recorded_send found with ⟨rfl, rfl⟩ | old
  · refine ⟨(b.lower source).2, b.identifier?_record source, ?_⟩
    have keeps := push_keeps (b.lower source).1 (.computed (b.lower source).2 source)
    cases b.lower_named source with
    | result _ named written =>
      exact .result named ⟨_, keeps.statements.subset (written ▸ List.mem_append_right _ List.mem_cons_self), rfl⟩
    | sampler kind named declared =>
      refine .sampler kind ?_ (keeps.keys.subset declared)
      rw [named, symbol, symbol, (b.send_keeps (.operation source)).settings]
    | varying kind => exact .varying kind
    | color _ kind => exact absurd kind value
  · obtain ⟨text, known, refers⟩ := h v source old value
    exact ⟨text, (b.send_keeps r).identifiers known, refers.keeps (b.send_keeps r)⟩

/-! ## Results -/

/-- The variables that the statements assign, in their order. -/
def results (b : Builder) : List String := b.statements.filterMap fun s => s.result.map Prod.snd

theorem results_append {more : List Statement} (written : b'.statements = b.statements ++ more) :
    b'.results = b.results ++ more.filterMap fun s => s.result.map Prod.snd := by
  rw [results, written, List.filterMap_append]
  rfl

/-- Each variable is called after the place of its operation, and the places go up. -/
def Numbered (b : Builder) : Prop := ∃ handles : List Handle, handles.Pairwise (fun h h' => h.index < h'.index)
  ∧ (∀ h ∈ handles, ∃ op, b.operation? h = some op) ∧ b.results = handles.map fun h => resultName h.index

theorem Numbered.send (h : b.Numbered) (r : Request) : (r.send b).1.Numbered := by
  obtain ⟨handles, rising, recorded, results⟩ := h
  -- The handles so far lie in the table, so the next place is above them.
  have below : ∀ v ∈ handles, v.index < b.definitions.size := by
    intro v member
    obtain ⟨op, found⟩ := recorded v member
    obtain ⟨d, place, -⟩ := Option.bind_eq_some_iff.1 found
    exact (Array.getElem?_eq_some_iff.1 place).1
  have still : ∀ v ∈ handles, ∃ op, (r.send b).1.operation? v = some op := by
    intro v member
    obtain ⟨op, found⟩ := recorded v member
    exact ⟨op, by rw [operation?_send, if_neg (Nat.ne_of_lt (below v member)), found]⟩
  have same {more : List Statement} (written : (r.send b).1.statements = b.statements ++ more)
      (silent : more.filterMap (fun s => s.result.map Prod.snd) = []) : (r.send b).1.Numbered :=
    ⟨handles, rising, still, by rw [results_append written, silent, List.append_nil, results]⟩
  cases r with
  | group name members => exact same (List.append_nil _).symm rfl
  | operation op =>
    cases b.lower_named op with
    | result _ named written =>
      refine ⟨handles ++ [⟨b.definitions.size⟩], ?_, ?_, ?_⟩
      · exact List.pairwise_append.2 ⟨rising, List.pairwise_singleton .., fun v member w last =>
          List.mem_singleton.1 last ▸ below v member⟩
      · intro v member
        rcases List.mem_append.1 member with old | new
        · exact still v old
        · exact ⟨op, by rw [List.mem_singleton.1 new, operation?_send, if_pos rfl]; rfl⟩
      · refine (results_append written).trans ?_
        rw [results, List.map_append, named]
        rfl
    | sampler _ _ _ written => exact same (written.trans (List.append_nil _).symm) rfl
    | varying _ written => exact same (written.trans (List.append_nil _).symm) rfl
    | color _ _ written => exact same written rfl

/-- No variable is assigned twice. -/
theorem Numbered.once (h : b.Numbered) : b.results.Nodup := by
  obtain ⟨handles, rising, -, results⟩ := h
  rw [results]
  exact List.pairwise_map.2 (rising.imp fun lt same => Nat.ne_of_lt lt (resultName_injective same))

/-! ## Operands -/

/-- The texts that the statement of an operation has for its operands. An operand that turns out
to be an operation is one when the statement is written, and is there to be read. -/
structure Reads (b last : Builder) (op : Operation) (texts : List String) : Prop where
  statement : (addOperation b op).1.statements = b.statements ++ (b.statement? op texts).toList
  refers : ∀ (i : Nat) (h : Handle), op.operands[i]? = some h → ∃ text, texts[i]? = some text
    ∧ ∀ source, last.operation? h = some source → b.operation? h = some source ∧ b.Refers h source text

/-- A value that is an operation later on is one now. -/
theorem source_live {last : Builder} {h : Handle} {source : Operation} (live : Live b h) (grows : Extends b last)
    (found : last.operation? h = some source) : b.operation? h = some source ∧ source.kind ≠ .fragmentColor := by
  cases live with
  | operation known value =>
    cases (grows.operation known).symm.trans found
    exact ⟨known, value⟩
  | group known =>
    have none := LawfulEvaluator.exclusive (b := last) found
    rw [grows.members known] at none
    cases none

theorem Referable.reads (h : b.Referable) {last : Builder} (grows : Extends b last)
    (live : ∀ v ∈ op.operands, Live b v) : ∃ texts, b.Reads last op texts := by
  refine ⟨b.texts op, lower_texts fun v member => identifier?_live (live v member), fun i v listed => ?_⟩
  have member := List.mem_of_getElem? listed
  refine ⟨(b.identifier? v).getD "", by rw [texts, List.getElem?_map, listed]; rfl, fun source found => ?_⟩
  obtain ⟨earlier, value⟩ := source_live (live v member) grows found
  obtain ⟨text, identified, refers⟩ := h v source earlier value
  rw [identified]
  exact ⟨earlier, refers⟩

/-! ## After some requests -/

section Start

variable (settings : Settings) (conversions : ConversionTable) (rs : List Request)

theorem referable_sendAll : (sendAll (Builder.offering settings conversions) rs).1.Referable :=
  Request.sendAll_induct (motive := fun (b : Builder) _ => b.Referable) (fun _ _ none => by cases none)
    (fun _ _ r h => h.send r) rs

theorem numbered_sendAll : (sendAll (Builder.offering settings conversions) rs).1.Numbered :=
  Request.sendAll_induct (motive := fun (b : Builder) _ => b.Numbered) ⟨[], .nil, fun _ none => (by cases none), rfl⟩
    (fun _ _ r h => h.send r) rs

end Start

/-! ## Programs -/

/-- What is declared for the nodes of some kinds: a uniform for each name of a property and a
sampler for each name of a sampler, with the slots from zero on in order of first use. -/
structure Declares (b : Builder) (rs : List Request) (kinds : List Kind) (ds : List Declaration) : Prop where
  entries : b.declarations.entries = ds.map (Declaration.entry b)
  uniforms : (ds.filterMap Declaration.uniform?).Nodup
  properties : ∀ name, name ∈ ds.filterMap Declaration.uniform? ↔ ∃ type, .property name type ∈ kinds
  order : (ds.filterMap Declaration.sampler?).map Prod.fst = (Request.samplers rs).eraseDups
  samplers : ∀ name, name ∈ (Request.samplers rs).eraseDups ↔ .sampler name ∈ kinds
  once : (Request.samplers rs).eraseDups.Nodup
  slots : (ds.filterMap Declaration.sampler?).map Prod.snd = List.range (Request.samplers rs).eraseDups.length

/-- The program of a builder that started as `start` and was asked for `rs` while nodes of some
kinds were compiled. What an operation reads is there when its turn comes, and stays. -/
structure Written (start b : Builder) (rs : List Request) (kinds : List Kind) : Prop where
  sent : b = (sendAll start rs).1
  recorded : ∀ h, b.operation? h = rs[h.index]?.bind Request.operation?
  numbered : b.Numbered
  once : b.results.Nodup
  reads : ∀ h op, b.operation? h = some op → ∃ texts, (sendAll start (rs.take h.index)).1.Reads b op texts
  stays : ∀ place, (sendAll start (rs.take place)).1.Keeps b
  attributes : ∀ name, .varying name ∈ Request.kinds rs ↔ ∃ type, .vertexAttribute name type ∈ kinds
  declares : ∃ ds, b.Declares rs kinds ds

theorem Declared.declares {ds : List Declaration} {kinds : List Kind}
    (h : b.Declared (Request.properties rs) (Request.samplers rs) ds)
    (leaves : ∀ o : OperationKind, o.IsLeaf → (o ∈ Request.kinds rs ↔ ∃ k ∈ kinds, k.leaf? = some o)) :
    b.Declares rs kinds ds where
  entries := h.entries
  uniforms := h.uniforms ▸ nodup_eraseDups _
  properties name := by
    rw [h.uniforms, List.mem_eraseDups, Request.mem_properties_iff]
    exact (leaves (.property name) trivial).trans Kind.leaf_iff
  order := by rw [h.samplers, List.zipIdx_map_fst]
  samplers name := by
    rw [List.mem_eraseDups, Request.mem_samplers_iff]
    exact (leaves (.sampler name) trivial).trans Kind.leaf_iff
  once := nodup_eraseDups _
  slots := by rw [h.samplers, List.zipIdx_map_snd, List.range_eq_range']

theorem written {settings : Settings} {conversions : ConversionTable} {kinds : List Kind}
    (careful : Careful (Builder.offering settings conversions) rs)
    (leaves : ∀ o : OperationKind, o.IsLeaf → (o ∈ Request.kinds rs ↔ ∃ k ∈ kinds, k.leaf? = some o)) :
    Written (.offering settings conversions) (sendAll (Builder.offering settings conversions) rs).1 rs kinds where
  sent := rfl
  recorded := (tabled_sendAll _ _ rs).2
  numbered := numbered_sendAll _ _ rs
  once := (numbered_sendAll _ _ rs).once
  reads h op recorded := by
    refine (referable_sendAll _ _ _).reads ?_ (careful.live_at ((tabled_sendAll _ _ rs).asked recorded))
    rw [Request.sendAll_drop _ rs h.index]
    exact Request.sendAll_extends _ _
  stays := take_keeps _ rs
  attributes name := (leaves (.varying name) trivial).trans Kind.leaf_iff
  declares := by
    obtain ⟨ds, h⟩ := declared_sendAll settings conversions rs
    exact ⟨ds, h.declares leaves⟩

end Builder

end Program

/-- Whatever graph is loaded and however its evaluation ends, the program assigns each variable
once, reads only what is there, and declares what the compiled nodes name. -/
theorem Graph.evaluation_writes {stored g : Graph} (loaded : stored.restore = .ok g) (settings : Settings)
    (conversions : Conversions) : ∃ rs, Program.Builder.Written (.new settings conversions)
      (g.evaluate (Program.Builder.new settings conversions)).backend rs
      (g.compiledKinds (Program.Builder.new settings conversions)) := by
  obtain ⟨⟨sound, sized⟩, rfl⟩ := restore_eq_ok_iff.1 loaded
  obtain ⟨rs, sent, careful, leaves⟩ :=
    evaluate_careful sound sized (Program.Builder.offers_new settings conversions)
  refine ⟨rs, ?_⟩
  rw [sent]
  exact Program.Builder.written careful leaves

/-- A texture, tinted twice with the same property. -/
def Graph.tintedTexture : Graph where
  id := .zero
  name := untitled
  nextId := 29
  terminal := some ⟨20⟩
  nodes := .ofList [(⟨0⟩, ⟨⟨0⟩, .sampler "albedo", .origin, [], [⟨1⟩], false⟩),
    (⟨2⟩, ⟨⟨2⟩, .vertexAttribute "v_uv" (.scalar Base.vec2), .origin, [], [⟨3⟩], false⟩),
    (⟨4⟩, ⟨⟨4⟩, .sample2D, .origin, [⟨5⟩, ⟨6⟩], [⟨7⟩], false⟩),
    (⟨8⟩, ⟨⟨8⟩, .property "tint" (.scalar Base.vec4), .origin, [], [⟨9⟩], false⟩),
    (⟨10⟩, ⟨⟨10⟩, .property "tint" (.scalar Base.vec4), .origin, [], [⟨11⟩], false⟩),
    (⟨12⟩, ⟨⟨12⟩, .add (.scalar Base.vec4), .origin, [⟨13⟩, ⟨14⟩], [⟨15⟩], false⟩),
    (⟨16⟩, ⟨⟨16⟩, .add (.scalar Base.vec4), .origin, [⟨17⟩, ⟨18⟩], [⟨19⟩], false⟩),
    (⟨20⟩, ⟨⟨20⟩, .materialOutput, .origin, [⟨21⟩], [], false⟩)]
  inputPins := .ofList [(⟨5⟩, ⟨⟨5⟩, ⟨4⟩, "Texture", .scalar Base.texture2D, false, some ⟨1⟩⟩),
    (⟨6⟩, ⟨⟨6⟩, ⟨4⟩, "UV", .scalar Base.vec2, true, some ⟨3⟩⟩),
    (⟨13⟩, ⟨⟨13⟩, ⟨12⟩, "A", .scalar Base.vec4, false, some ⟨7⟩⟩),
    (⟨14⟩, ⟨⟨14⟩, ⟨12⟩, "B", .scalar Base.vec4, false, some ⟨9⟩⟩),
    (⟨17⟩, ⟨⟨17⟩, ⟨16⟩, "A", .scalar Base.vec4, false, some ⟨15⟩⟩),
    (⟨18⟩, ⟨⟨18⟩, ⟨16⟩, "B", .scalar Base.vec4, false, some ⟨11⟩⟩),
    (⟨21⟩, ⟨⟨21⟩, ⟨20⟩, "Color", .scalar Base.vec4, false, some ⟨19⟩⟩)]
  outputPins := .ofList [(⟨1⟩, ⟨⟨1⟩, ⟨0⟩, "Texture", .scalar Base.texture2D, none⟩),
    (⟨3⟩, ⟨⟨3⟩, ⟨2⟩, "Value", .scalar Base.vec2, none⟩), (⟨7⟩, ⟨⟨7⟩, ⟨4⟩, "Color", .scalar Base.vec4, none⟩),
    (⟨9⟩, ⟨⟨9⟩, ⟨8⟩, "Value", .scalar Base.vec4, none⟩), (⟨11⟩, ⟨⟨11⟩, ⟨10⟩, "Value", .scalar Base.vec4, none⟩),
    (⟨15⟩, ⟨⟨15⟩, ⟨12⟩, "Result", .scalar Base.vec4, none⟩),
    (⟨19⟩, ⟨⟨19⟩, ⟨16⟩, "Result", .scalar Base.vec4, none⟩)]
  links := .ofList [(⟨22⟩, ⟨⟨22⟩, ⟨5⟩, ⟨1⟩⟩), (⟨23⟩, ⟨⟨23⟩, ⟨6⟩, ⟨3⟩⟩), (⟨24⟩, ⟨⟨24⟩, ⟨13⟩, ⟨7⟩⟩),
    (⟨25⟩, ⟨⟨25⟩, ⟨14⟩, ⟨9⟩⟩), (⟨26⟩, ⟨⟨26⟩, ⟨17⟩, ⟨15⟩⟩), (⟨27⟩, ⟨⟨27⟩, ⟨18⟩, ⟨11⟩⟩), (⟨28⟩, ⟨⟨28⟩, ⟨21⟩, ⟨19⟩⟩)]

/-- The property is read twice and declared once. -/
theorem Graph.evaluation_writes_tinted : tintedTexture.restore = .ok tintedTexture
    ∧ ((tintedTexture.evaluate (Program.Builder.new .standard .material)).backend.declarations.values
      = ["SAMPLER2D(s_Material_albedo, 0);", "uniform vec4 u_Material_tint;"])
    ∧ (tintedTexture.evaluate (Program.Builder.new .standard .material)).backend.statements.map Program.Statement.line
      = ["\tvec4 v2 = texture2D(s_Material_albedo, v_uv);", "\tvec4 v3 = u_Material_tint;", "\tvec4 v4 = v2 + v3;",
        "\tvec4 v5 = u_Material_tint;", "\tvec4 v6 = v4 + v5;", "\tgl_FragColor = v6;"]
    ∧ ∃ rs, Program.Builder.Written (.new .standard .material)
      (tintedTexture.evaluate (Program.Builder.new .standard .material)).backend rs
      (tintedTexture.compiledKinds (Program.Builder.new .standard .material)) := by
  have loaded : tintedTexture.restore = .ok tintedTexture := by decide
  have enough : tintedTexture.nodes.size < 9 := by decide
  exact ⟨loaded,
    evaluate_within (f := fun e : Evaluation Program.Builder => e.backend.declarations.values) enough (by decide),
    evaluate_within (f := fun e : Evaluation Program.Builder => e.backend.statements.map Program.Statement.line) enough
      (by decide),
    evaluation_writes loaded .standard .material⟩

end FrameGraph
