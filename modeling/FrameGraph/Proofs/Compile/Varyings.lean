/-
  FrameGraph.Proofs.Compile.Varyings: what a fragment program takes from the vertex stage.

  An attribute has no statement; wherever its value is used, its name stands as it was given
  (`Verbatim`), and a texture that is sampled without coordinates takes those of the settings.
  The input line is up to the settings alone. So a varying that a program refers to is there if
  and only if the settings list it (`session_varyings`), and it is taken for a result only if it
  is called like one. The settings need not list it, and it may be called like one.
-/

import FrameGraph.Proofs.Compile.Artifacts
import FrameGraph.Proofs.Compile.Assignments
import FrameGraph.Proofs.Store.Runs

namespace FrameGraph

open Request (sendAll)

namespace Request

theorem mem_kinds {rs : List Request} {i : Nat} {op : Operation} (asked : rs[i]?.bind operation? = some op) :
    op.kind ∈ kinds rs := by
  obtain ⟨r, place, found⟩ := Option.bind_eq_some_iff.1 asked
  exact List.mem_map.2 ⟨op, List.mem_filterMap.2 ⟨r, List.mem_of_getElem? place, found⟩, rfl⟩

end Request

namespace Program

/-- The first line of a fragment program names the varyings of the settings. -/
theorem render_fragment {s : Settings} (fragment : s.stage = .fragment) (declarations : List String)
    (statements : List Statement) : ∃ rest,
      render s declarations statements = "$input " ++ ", ".intercalate s.varyings ++ "\n" ++ rest := by
  have interface : interfaceLines s = ["$input " ++ ", ".intercalate s.varyings] := by
    rw [interfaceLines, fragment]
  unfold render lines
  rw [interface]
  exact ⟨_, String.join_cons⟩

namespace Builder

variable {b : Builder} {op : Operation} {name : String}

/-! ## Names of attributes -/

def Verbatim (b : Builder) : Prop := ∀ v source name, b.operation? v = some source → source.kind = .varying name →
  b.identifier? v = some name

theorem Verbatim.send (verbatim : b.Verbatim) (r : Request) : (r.send b).1.Verbatim := by
  intro v source name found kind
  rcases recorded_send found with ⟨rfl, rfl⟩ | old
  · have text : (b.lower source).2 = name := by rw [lower, kind]
    exact text ▸ b.identifier?_record source
  · exact (b.send_keeps r).identifiers (verbatim v source name old kind)

theorem verbatim_sendAll (settings : Settings) (conversions : ConversionTable) (rs : List Request) :
    (sendAll (Builder.offering settings conversions) rs).1.Verbatim :=
  Request.sendAll_induct (motive := fun (b : Builder) _ => b.Verbatim) (fun _ _ _ none => by cases none)
    (fun _ _ r h => h.send r) rs

theorem Verbatim.text (verbatim : b.Verbatim) {i : Nat} {v : Handle} {source : Operation}
    (operand : op.operands[i]? = some v) (found : b.operation? v = some source) (kind : source.kind = .varying name) :
    (b.texts op)[i]? = some name := by
  rw [texts, List.getElem?_map, operand, Option.map_some, verbatim v source name found kind]
  rfl

/-! ## References -/

/-- The statement of an operation refers to a varying. -/
inductive Cites (b : Builder) (op : Operation) (name : String) : Prop
  /-- It does so wherever the value of an attribute is an operand. -/
  | operand {v : Handle} {source : Operation} : v ∈ op.operands → b.operation? v = some source →
    source.kind = .varying name → Cites b op name
  /-- A texture is sampled, and no coordinates are given. -/
  | unplaced : op.kind = .sample2D → op.operands.length ≤ 1 → name = b.settings.texcoord → Cites b op name

/-- What a program takes from the vertex stage, and what it makes of it, when nodes of some kinds
were compiled. -/
structure Carries (b : Builder) (kinds : List Kind) : Prop where
  input : ∃ rest, b.source.text = "$input " ++ ", ".intercalate b.settings.varyings ++ "\n" ++ rest
  stated : ∀ h op, b.operation? h = some op → ∃ s, b.States h op s ∧ ∀ t ∈ s, t ∈ b.statements
  /-- There are no other statements. -/
  recorded : ∀ t ∈ b.statements, ∃ h op, b.operation? h = some op ∧ b.States h op (some t)
  verbatim : ∀ (op : Operation) (i : Nat) v source name, op.operands[i]? = some v → b.operation? v = some source →
    source.kind = .varying name → (b.texts op)[i]? = some name
  named : ∀ op name, b.Cites op name → (∃ type, .vertexAttribute name type ∈ kinds) ∨ name = b.settings.texcoord
  /-- If each attribute and the coordinates are on the input line, so is whatever is referred to. -/
  bound : (∀ name type, .vertexAttribute name type ∈ kinds → name ∈ b.settings.varyings) →
    b.settings.texcoord ∈ b.settings.varyings → ∀ op name, b.Cites op name → name ∈ b.settings.varyings
  /-- A varying that is called like a result is called like that of a recorded operation. -/
  captured : ∀ name ∈ b.results, ∃ h op, b.operation? h = some op ∧ name = resultName h.index

theorem carries {settings : Settings} (fragment : settings.stage = .fragment) {conversions : ConversionTable}
    {rs : List Request} {kinds : List Kind} (careful : Careful (Builder.offering settings conversions) rs)
    (attributes : ∀ name, .varying name ∈ Request.kinds rs ↔ ∃ type, .vertexAttribute name type ∈ kinds) :
    (sendAll (Builder.offering settings conversions) rs).1.Carries kinds := by
  have same : (sendAll (Builder.offering settings conversions) rs).1.settings = settings := (sendAll_keeps _ rs).settings
  have named : ∀ op name, (sendAll (Builder.offering settings conversions) rs).1.Cites op name →
      (∃ type, .vertexAttribute name type ∈ kinds)
        ∨ name = (sendAll (Builder.offering settings conversions) rs).1.settings.texcoord := by
    intro op name cites
    cases cites with
    | operand _ found kind =>
      rw [(tabled_sendAll settings conversions rs).2] at found
      exact .inl ((attributes name).1 (kind ▸ Request.mem_kinds found))
    | unplaced _ _ fallback => exact .inr fallback
  refine ⟨?_, fun h op recorded => stated_sendAll careful recorded,
    fun t written => statements_recorded careful rs.length (by rwa [List.take_length]),
    fun op i v source name => (verbatim_sendAll settings conversions rs).text, named, fun listed fallback => ?_, ?_⟩
  · exact render_fragment (by rw [same, fragment]) _ _
  · intro op name cites
    rcases named op name cites with ⟨type, compiled⟩ | rfl
    · exact listed name type compiled
    · exact fallback
  · intro name assigned
    obtain ⟨handles, -, recorded, results⟩ := numbered_sendAll settings conversions rs
    rw [results] at assigned
    obtain ⟨h, member, rfl⟩ := List.mem_map.1 assigned
    obtain ⟨op, found⟩ := recorded h member
    exact ⟨h, op, found, rfl⟩

end Builder

end Program

namespace Graph

/-- Whatever graph and settings a fragment program comes of, it takes what the settings list and
refers to attributes by their names. -/
theorem session_varyings {start g : Graph} (h : Start start) {edits : List Edit} (ran : Edit.run edits start = .ok g)
    {s : Settings} (fragment : s.stage = .fragment) {source : Program.Source}
    (made : (s.generateMaterial g).result = .ok source) :
    ∃ b, source = Program.Builder.source b ∧ b = (g.evaluate (Program.Builder.standard s)).backend
      ∧ b.settings = s ∧ b.Carries (g.compiledKinds (Program.Builder.standard s)) := by
  obtain ⟨sound, sized⟩ := Start.after h ran
  obtain ⟨-, -, rfl⟩ := generateMaterial_ok_iff.1 made
  obtain ⟨rs, sent, careful, leaves⟩ := evaluate_careful sound sized (Program.Builder.offers_new s .material)
  refine ⟨_, rfl, rfl, ?_⟩
  rw [Program.Builder.standard, sent]
  exact ⟨(Program.Builder.sendAll_keeps _ rs).settings, Program.Builder.carries fragment careful
    fun name => (leaves (.varying name) trivial).trans Kind.leaf_iff⟩

/-- A texture at the coordinates of the settings, and a color on top of it. -/
def coloredTexture : List Edit :=
  [.addNode (.sampler "albedo") .origin, .addNode .sample2D .origin,
    .addNode (.vertexAttribute "v_normal" (.scalar Base.vec4)) .origin, .addNode .newAdd .origin,
    .addNode .materialOutput .origin, .connect ⟨1⟩ ⟨3⟩, .connect ⟨5⟩ ⟨9⟩, .connect ⟨7⟩ ⟨10⟩, .connect ⟨11⟩ ⟨13⟩,
    .setTerminal ⟨12⟩]

theorem session_varyings_colored : Start (.new .zero untitled) ∧ Settings.standard.stage = .fragment
    ∧ ∃ g source, Edit.run coloredTexture (.new .zero untitled) = .ok g
      ∧ (Settings.standard.generateMaterial g).result = .ok source
      ∧ ((g.evaluate (Program.Builder.standard .standard)).backend.statements.map Program.Statement.line
        = ["\tvec4 v1 = texture2D(s_Material_albedo, v_texcoord);", "\tvec4 v3 = v1 + v_normal;", "\tgl_FragColor = v3;"])
      ∧ ∃ b, source = Program.Builder.source b ∧ b = (g.evaluate (Program.Builder.standard .standard)).backend
        ∧ b.settings = .standard ∧ b.Carries (g.compiledKinds (Program.Builder.standard .standard)) := by
  have within : (Edit.run coloredTexture (.new .zero untitled)).map (fun g => (decide (g.nodes.size < 6),
        (g.evaluateWithin 6 (Program.Builder.standard .standard)).map fun e => (e.result, e.backend.taken)))
      = .ok (true, some (.ok (), false)) := by decide
  have written : (Edit.run coloredTexture (.new .zero untitled)).map (fun g =>
        (g.evaluate (Program.Builder.standard .standard)).backend.statements.map Program.Statement.line)
      = .ok ["\tvec4 v1 = texture2D(s_Material_albedo, v_texcoord);", "\tvec4 v3 = v1 + v_normal;",
          "\tgl_FragColor = v3;"] :=
    map_evaluate_within (f := fun e : Evaluation Program.Builder => e.backend.statements.map Program.Statement.line)
      6 (by decide)
  obtain ⟨g, ran, made⟩ := generates_within 6 within
  rw [ran] at written
  exact ⟨.new _ _, rfl, g, _, ran, made, Except.ok.inj written, session_varyings (.new _ _) ran rfl made⟩

/-- Two attributes that are not among the varyings of the settings. The second one is called like
the sum of both. -/
def clashingNames : List Edit :=
  [.addNode (.vertexAttribute "v_color" (.scalar Base.vec4)) .origin,
    .addNode (.vertexAttribute "v2" (.scalar Base.vec4)) .origin, .addNode .newAdd .origin,
    .addNode .materialOutput .origin, .connect ⟨1⟩ ⟨5⟩, .connect ⟨3⟩ ⟨6⟩, .connect ⟨7⟩ ⟨9⟩, .setTerminal ⟨8⟩]

/-- Neither is taken from the vertex stage, and the sum refers to itself. -/
theorem a_varying_is_left_out_and_another_captured : (Edit.run clashingNames (.new .zero untitled)).map (fun g =>
      ((g.evaluate (Program.Builder.standard .standard)).result,
        Program.interfaceLines (g.evaluate (Program.Builder.standard .standard)).backend.settings,
        (g.evaluate (Program.Builder.standard .standard)).backend.statements.map Program.Statement.line))
    = .ok (.ok (), ["$input v_normal, v_texcoord"], ["\tvec4 v2 = v_color + v2;", "\tgl_FragColor = v2;"]) :=
  map_evaluate_within (f := fun e : Evaluation Program.Builder => (e.result, Program.interfaceLines e.backend.settings,
    e.backend.statements.map Program.Statement.line)) 5 rfl

end Graph

end FrameGraph
