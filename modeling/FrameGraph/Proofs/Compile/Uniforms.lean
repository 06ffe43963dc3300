/-
  FrameGraph.Proofs.Compile.Uniforms: the types of uniforms.

  A property is read once for each compiled node that names it, at the type of the node's pin
  (`Journal.readings`). It is declared when it is first read, and later readings do not look at
  the declaration again: the type that counts is that of the node that is compiled first
  (`DeclaresFirst.send`). So the readings of a property agree with its declaration just when
  the pins have one base type (`session_uniforms`). Nothing sees to that.
-/

import FrameGraph.Proofs.Compile.Artifacts
import FrameGraph.Proofs.Compile.Assignments
import FrameGraph.Proofs.Compile.Journal
import FrameGraph.Proofs.Store.Runs

namespace FrameGraph

open Request (sendAll)

/-- The type at which an operation reads a property. -/
def Operation.reading? (name : String) (op : Operation) : Option PinType :=
  if op.kind = .property name then some op.type else none

theorem Operation.reading?_eq_some_iff {name : String} {op : Operation} {type : PinType} :
    op.reading? name = some type ↔ op.kind = .property name ∧ op.type = type := by
  simp [reading?]

theorem Operation.reading?_eq_none {name : String} {op : Operation} (other : op.kind ≠ .property name) :
    op.reading? name = none := if_neg other

namespace Program

namespace Builder

variable {b : Builder} {name : String}

/-! ## Readings -/

/-- The types at which a property is read, in the order of the operations that read it. -/
def readings (b : Builder) (name : String) : List PinType :=
  b.definitions.toList.filterMap fun d => d.operation?.bind (Operation.reading? name)

theorem mem_readings_iff {type : PinType} :
    type ∈ b.readings name ↔ ∃ h op, b.operation? h = some op ∧ op.kind = .property name ∧ op.type = type := by
  simp only [readings, List.mem_filterMap, Option.bind_eq_some_iff, Operation.reading?_eq_some_iff]
  constructor
  · intro read
    obtain ⟨d, member, op, computed, kind, same⟩ := read
    obtain ⟨i, place⟩ := List.mem_iff_getElem?.1 member
    rw [Array.getElem?_toList] at place
    exact ⟨⟨i⟩, op, Option.bind_eq_some_iff.2 ⟨d, place, computed⟩, kind, same⟩
  · intro recorded
    obtain ⟨h, op, found, kind, same⟩ := recorded
    obtain ⟨d, place, computed⟩ := Option.bind_eq_some_iff.1 found
    exact ⟨d, Array.mem_toList_iff.2 (Array.mem_of_getElem? place), op, computed, kind, same⟩

theorem readings_send (b : Builder) (r : Request) (name : String) :
    (r.send b).1.readings name = b.readings name ++ (r.operation?.bind (Operation.reading? name)).toList := by
  have pushed (d : Definition) : (b.definitions.push d).toList.filterMap
      (fun d => d.operation?.bind (Operation.reading? name))
        = b.readings name ++ (d.operation?.bind (Operation.reading? name)).toList := by
    rw [Array.toList_push, List.filterMap_append]
    rfl
  cases r with
  | operation op =>
    show ((b.lower op).1.definitions.push _).toList.filterMap _ = _
    rw [(b.lower_keeps op).1]
    exact pushed (.computed _ op)
  | group name' members => exact pushed (.grouped name' members)

/-! ## Statements and declarations -/

/-- The statement that reads a property for an operation. -/
def reading (b : Builder) (h : Handle) (name : String) (type : PinType) : Statement :=
  ⟨some (type.base, resultName h.index), b.symbol "u" name⟩

theorem reading_congr {b' : Builder} (settings : b'.settings = b.settings) : b'.reading = b.reading := by
  funext h name type
  rw [reading, reading, symbol, symbol, settings]

theorem lower_property {op : Operation} (kind : op.kind = .property name) : (b.lower op).1.statements
    = b.statements ++ [b.reading ⟨b.definitions.size⟩ name op.type] := by
  unfold lower
  rw [kind]
  show (b.declareUniform _ _).statements ++ [⟨some (_, resultName (b.declareUniform _ _).definitions.size), _⟩] = _
  rw [declareUniform, declare_statements, (b.declare_keeps _ _).1]
  rfl

/-- Each operation on a property has a statement of its own. -/
def Assigns (b : Builder) : Prop := ∀ h op name, b.operation? h = some op → op.kind = .property name →
  b.reading h name op.type ∈ b.statements

theorem Assigns.send (assigns : b.Assigns) (r : Request) : (r.send b).1.Assigns := by
  intro h op name found kind
  have keeps := b.send_keeps r
  rw [reading_congr keeps.settings]
  rcases recorded_send found with ⟨rfl, rfl⟩ | old
  · show _ ∈ (b.lower op).1.statements
    rw [lower_property kind]
    exact List.mem_append_right _ (List.mem_singleton_self _)
  · exact keeps.statements.subset (assigns h op name old kind)

/-- How a property is declared if it has a type. -/
def uniform (b : Builder) (name : String) (type : PinType) : String :=
  "uniform " ++ type.base ++ " " ++ b.symbol "u" name ++ ";"

theorem uniform_eq (b : Builder) (name : String) (type : PinType) :
    b.uniform name type = "uniform " ++ type.base ++ " " ++ b.symbol "u" name ++ ";" := rfl

theorem uniform_congr {b' : Builder} (settings : b'.settings = b.settings) : b'.uniform = b.uniform := by
  funext name type
  rw [uniform_eq, uniform_eq, symbol, symbol, settings]

theorem uniform_injective {type type' : PinType} (same : b.uniform name type = b.uniform name type') :
    type.base = type'.base := by
  simp only [uniform_eq, String.append_left_inj, String.append_right_inj] at same
  exact same

theorem get?_declare (b : Builder) (key line text : String) : (b.declare key line).declarations.get? text
    = (b.declarations.get? text).or (if text = key then some line else none) := by
  unfold declare
  split
  · rename_i known
    obtain ⟨old, found⟩ := Table.mem_keys_iff.1 (Table.contains_iff.1 known)
    by_cases same : text = key
    · rw [same, found, Option.some_or]
    · rw [if_neg same, Option.or_none]
  · rename_i new
    have absent := Table.get?_eq_none_iff.2 fun known => new (Table.contains_iff.2 known)
    rw [Table.get?_insert]
    by_cases same : text = key
    · rw [if_pos same, if_pos same, same, absent, Option.none_or]
    · rw [if_neg same, if_neg same, Option.or_none]

/-- Lowering declares a property that is read and not declared yet. -/
theorem lower_uniform (b : Builder) (op : Operation) (name : String) :
    (b.lower op).1.declarations.get? (b.symbol "u" name)
      = (b.declarations.get? (b.symbol "u" name)).or ((op.reading? name).map (b.uniform name)) := by
  unfold lower
  cases kind : op.kind with
  | property own =>
    show (b.declareUniform (b.symbol "u" own) _).declarations.get? _ = _
    rw [declareUniform, get?_declare]
    by_cases same : own = name
    · subst same
      rw [if_pos rfl, Operation.reading?, if_pos kind, Option.map_some, uniform_eq]
    · have other : b.symbol "u" name ≠ b.symbol "u" own := fun eq => same (symbol_inj eq (by simp)).2.symm
      rw [if_neg other, Operation.reading?_eq_none (by rw [kind]; simpa using same)]
      rfl
  | sampler own =>
    show (b.declareSampler (b.symbol "s" own)).declarations.get? _ = _
    have other : b.symbol "u" name ≠ b.symbol "s" own := fun eq => absurd (symbol_inj eq (by simp)).1 (by decide)
    rw [Operation.reading?_eq_none (by simp [kind]), Option.map_none, Option.or_none]
    unfold declareSampler
    split
    · rfl
    · show (b.declare _ _).declarations.get? _ = _
      rw [get?_declare, if_neg other, Option.or_none]
  | _ =>
    rw [Operation.reading?_eq_none (by simp [kind])]
    exact Option.or_none.symm

/-- Properties are declared with the types at which they are read first. -/
def DeclaresFirst (b : Builder) : Prop := ∀ name,
  b.declarations.get? (b.symbol "u" name) = (b.readings name).head?.map (b.uniform name)

theorem DeclaresFirst.send (first : b.DeclaresFirst) (r : Request) : (r.send b).1.DeclaresFirst := by
  intro name
  have settings := (b.send_keeps r).settings
  rw [uniform_congr settings, symbol, settings, ← symbol, readings_send, List.head?_append, Option.head?_toList,
    Option.map_or, ← first name]
  cases r with
  | operation op => exact b.lower_uniform op name
  | group => exact (Option.or_none).symm

/-! ## Readings and declarations together -/

/-- What a program makes of a property that is read at some types, one after another. -/
structure Binds (b : Builder) (name : String) (types : List PinType) : Prop where
  readings : b.readings name = types
  /-- Each operation that reads it is one statement, and the only one with this result. -/
  assigned : ∀ h op, b.operation? h = some op → op.kind = .property name → b.reading h name op.type ∈ b.statements
  once : b.results.Nodup
  declared : b.declarations.get? (b.symbol "u" name) = types.head?.map (b.uniform name)
  /-- The readings agree with the declaration just when they agree with each other. -/
  agree : (∀ h op, b.operation? h = some op → op.kind = .property name →
      b.declarations.get? (b.symbol "u" name) = some (b.uniform name op.type))
    ↔ ∀ type ∈ types, ∀ type' ∈ types, type.base = type'.base

theorem DeclaresFirst.agree (first : b.DeclaresFirst) (name : String) :
    (∀ h op, b.operation? h = some op → op.kind = .property name →
      b.declarations.get? (b.symbol "u" name) = some (b.uniform name op.type))
    ↔ ∀ type ∈ b.readings name, ∀ type' ∈ b.readings name, type.base = type'.base := by
  constructor
  · intro same type read type' read'
    obtain ⟨h, op, found, kind, rfl⟩ := mem_readings_iff.1 read
    obtain ⟨h', op', found', kind', rfl⟩ := mem_readings_iff.1 read'
    have lines := (same h op found kind).symm.trans (same h' op' found' kind')
    exact uniform_injective (Option.some.inj lines)
  · intro same h op found kind
    have read : op.type ∈ b.readings name := mem_readings_iff.2 ⟨h, op, found, kind, rfl⟩
    rw [first name]
    cases types : b.readings name with
    | nil =>
      rw [types] at read
      cases read
    | cons declared rest =>
      rw [types] at same read
      have base := same declared List.mem_cons_self op.type read
      rw [List.head?_cons, Option.map_some, uniform_eq, uniform_eq, base]

theorem binds_sendAll (settings : Settings) (conversions : ConversionTable) (rs : List Request) (name : String) :
    let b := (sendAll (Builder.offering settings conversions) rs).1
    b.Binds name (b.readings name) := by
  have assigns : (sendAll (Builder.offering settings conversions) rs).1.Assigns :=
    Request.sendAll_induct (motive := fun (b : Builder) _ => b.Assigns) (fun _ _ _ none => by cases none)
      (fun _ _ r h => h.send r) rs
  have first : (sendAll (Builder.offering settings conversions) rs).1.DeclaresFirst :=
    Request.sendAll_induct (motive := fun (b : Builder) _ => b.DeclaresFirst) (fun _ => rfl)
      (fun _ _ r h => h.send r) rs
  exact ⟨rfl, fun h op => assigns h op name, (numbered_sendAll ..).once, first name, first.agree name⟩

/-! ## Nodes that read no property -/

/-- The back end grows, and no operation reads a property of this name. -/
def silent (registry : Registry) (name : String) : Custody Builder where
  good b := Offers b registry
  leads b b' := Extends b b' ∧ b'.readings name = b.readings name
  vouches _ _ := True
  admits o := o ≠ .property name
  yields _ := True

theorem silent_lawful (registry : Registry) (name : String) : (silent registry name).Lawful where
  refl _ := ⟨.refl _, rfl⟩
  trans h h' := ⟨h.1.trans h'.1, h'.2.trans h.2⟩
  good good leads := good.stays leads.1
  stays _ _ := trivial
  members _ _ _ _ _ := trivial
  record {b op} _ other _ := by
    refine ⟨⟨LawfulEvaluator.addOperation_extends b op, ?_⟩, fun _ => trivial⟩
    refine (readings_send b (.operation op) name).trans ?_
    rw [Request.operation?, Option.bind_some, Operation.reading?_eq_none other]
    exact List.append_nil _
  group {b ms} own _ _ := by
    refine ⟨⟨LawfulEvaluator.addArray_extends b own ms, ?_⟩, trivial⟩
    exact (readings_send b (.group own ms) name).trans (List.append_nil _)
  conversion {b source target k} good offered v type _ := by
    rw [good source target] at offered
    obtain ⟨known, -, rfl⟩ := Option.map_eq_some_iff.1 offered
    exact ⟨by cases known <;> exact nofun, trivial, fun _ _ => trivial⟩
  yields _ _ := trivial

end Builder

end Program

namespace Graph

variable {g : Graph} {registry : Registry} {name : String} {p q : Progress Program.Builder} {id : NodeId} {n : Node}
  {js : List (Compilation Program.Builder)}

/-! ## One compilation and many -/

/-- The type at which a node reads a property: that of its only output. -/
def readingAt? (g : Graph) (name : String) (id : NodeId) : Option PinType :=
  (g.nodes.get? id).bind fun n =>
    if n.kind.leaf? = some (.property name) then ((g.outputsOf n).map OutputPin.type).head? else none

theorem Compiles.readings (sound : g.Sound) (sized : Every (fun o => o.shape.Sized) g)
    (step : g.Compiles p id n q) (offers : Offers p.backend registry) :
    q.backend.readings name = p.backend.readings name ++ (g.readingAt? name id).toList := by
  have backend : (g.compileNode id n p).2.backend = q.backend := by rw [step.compiled]
  rw [readingAt?, step.registered, Option.bind_some]
  by_cases leaf : n.kind.leaf? = some (.property name)
  · obtain ⟨op, kind, -, types, sent, -⟩ := compileNode_leaf sound sized step.registered leaf p
    rw [if_pos leaf, types, ← backend, sent]
    refine (Program.Builder.readings_send p.backend (.operation op) name).trans ?_
    rw [Request.operation?, Option.bind_some, Operation.reading?, if_pos kind]
    rfl
  · have admits : ∀ o, n.kind.Records o → o ≠ .property name := by
      intro o records same
      subst same
      exact leaf (Kind.Admits.leaf (.inl records) trivial)
    have orderly : Orderly (Program.Builder.silent registry name) p := ⟨offers, fun _ _ => trivial⟩
    obtain ⟨⟨-, same⟩, -⟩ := compileNode_kept (Program.Builder.silent_lawful registry name) orderly admits
    rw [if_neg leaf, ← backend, same]
    exact (List.append_nil _).symm

/-- The readings of a property are those of the nodes that a journal compiles, in its order. -/
theorem Journal.readings (sound : g.Sound) (sized : Every (fun o => o.shape.Sized) g) (h : g.Journal p js q)
    (offers : Offers p.backend registry) : q.backend.readings name
      = p.backend.readings name ++ js.filterMap fun c => g.readingAt? name c.node := by
  induction h with
  | nil p => exact (List.append_nil _).symm
  | @cons p q r id n js step rest ih =>
    have grown : Offers q.backend registry := offers.stays step.grows
    have first : q.backend.readings name = p.backend.readings name ++ (g.readingAt? name id).toList :=
      step.readings sound sized offers
    rw [ih grown, first, List.append_assoc]
    cases read : g.readingAt? name id <;> simp [read]

/-! ## Programs of sessions -/

/-- Whatever a program comes of, each property in it is read at the types of the nodes that name
it, as they are compiled, and declared with the first of these types. -/
theorem session_uniforms {start : Graph} (h : Start start) {edits : List Edit} (ran : Edit.run edits start = .ok g)
    {s : Settings} {source : Program.Source} (made : (s.generateMaterial g).result = .ok source) :
    ∃ b terminal js, source = Program.Builder.source b ∧ g.terminal = some terminal
      ∧ b = (g.evaluate (Program.Builder.standard s)).backend
      ∧ g.PassRecorded (Program.Builder.standard s) terminal js
      ∧ ∀ name, b.Binds name (js.filterMap fun c => g.readingAt? name c.node) := by
  obtain ⟨sound, sized⟩ := Start.after h ran
  obtain ⟨done, -, rfl⟩ := generateMaterial_ok_iff.1 made
  cases chosen : g.terminal with
  | none =>
    rw [evaluate_unchosen chosen] at done
    cases done
  | some terminal =>
    obtain ⟨js, recorded⟩ := evaluate_journal sound chosen done
    refine ⟨_, terminal, js, rfl, rfl, rfl, recorded, fun name => ?_⟩
    obtain ⟨p, journal, -, backend⟩ := recorded.ran
    obtain ⟨rs, sent⟩ := journal.sends
    have readings : p.backend.readings name = js.filterMap fun c => g.readingAt? name c.node :=
      journal.readings sound sized (Program.Builder.offers_new s .material)
    rw [backend, ← readings, sent]
    exact Program.Builder.binds_sendAll s _ rs name

/-- A property, added to itself from two nodes. -/
def doubledTint : List Edit :=
  [.addNode (.property "tint" (.scalar Base.vec4)) .origin, .addNode (.property "tint" (.scalar Base.vec4)) .origin,
    .addNode .newAdd .origin, .addNode .materialOutput .origin, .connect ⟨1⟩ ⟨5⟩, .connect ⟨3⟩ ⟨6⟩, .connect ⟨7⟩ ⟨9⟩,
    .setTerminal ⟨8⟩]

theorem session_uniforms_tint : Start (.new .zero untitled)
    ∧ ∃ g source, Edit.run doubledTint (.new .zero untitled) = .ok g
      ∧ (Settings.standard.generateMaterial g).result = .ok source
      ∧ ∃ b terminal js, source = Program.Builder.source b ∧ g.terminal = some terminal
        ∧ b = (g.evaluate (Program.Builder.standard .standard)).backend
        ∧ g.PassRecorded (Program.Builder.standard .standard) terminal js
        ∧ ∀ name, b.Binds name (js.filterMap fun c => g.readingAt? name c.node) := by
  have within : (Edit.run doubledTint (.new .zero untitled)).map (fun g => (decide (g.nodes.size < 5),
        (g.evaluateWithin 5 (Program.Builder.standard .standard)).map fun e => (e.result, e.backend.taken)))
      = .ok (true, some (.ok (), false)) := by decide
  obtain ⟨g, ran, made⟩ := generates_within 5 within
  exact ⟨.new _ _, g, _, ran, made, session_uniforms (.new _ _) ran made⟩

/-- A property as a number and as a vector. The number is widened and added to the vector. -/
def twoWidths : List Edit :=
  [.addNode (.property "x" (.scalar Base.float)) .origin,
    .addNode (.newConvert (.scalar Base.float) (.scalar Base.vec4)) .origin,
    .addNode (.property "x" (.scalar Base.vec4)) .origin, .addNode .newAdd .origin, .addNode .materialOutput .origin,
    .connect ⟨1⟩ ⟨3⟩, .connect ⟨4⟩ ⟨8⟩, .connect ⟨6⟩ ⟨9⟩, .connect ⟨10⟩ ⟨12⟩, .setTerminal ⟨11⟩]

/-- The third statement reads a number as a vector. -/
theorem a_uniform_is_read_at_another_type : (Edit.run twoWidths (.new .zero untitled)).map (fun g =>
      ((g.evaluate (Program.Builder.standard .standard)).result,
        (g.evaluate (Program.Builder.standard .standard)).backend.declarations.values,
        (g.evaluate (Program.Builder.standard .standard)).backend.statements.map Program.Statement.line))
    = .ok (.ok (), ["uniform float u_Material_x;"],
        ["\tfloat v0 = u_Material_x;", "\tvec4 v1 = vec4(v0);", "\tvec4 v2 = u_Material_x;", "\tvec4 v3 = v1 + v2;",
          "\tgl_FragColor = v3;"]) :=
  map_evaluate_within (f := fun e : Evaluation Program.Builder => (e.result, e.backend.declarations.values,
    e.backend.statements.map Program.Statement.line)) 6 rfl

end Graph

end FrameGraph
