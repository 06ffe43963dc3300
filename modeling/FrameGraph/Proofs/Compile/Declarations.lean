/-
  FrameGraph.Proofs.Compile.Declarations: what a program declares.

  A uniform or sampler is declared when its name is first met, and later uses of the name change
  nothing. The symbols of different names differ, and those of uniforms differ from those of
  samplers. So after any requests, the declarations are one for each name that was asked for, in
  order of first use, and the samplers have the slots from zero on (`Declared`).
-/

import FrameGraph.Proofs.Compile.Requests
import Mathlib.Data.List.Nodup

namespace FrameGraph

open Request (sendAll)

/-! ## First uses -/

section FirstUses

variable {α : Type} [DecidableEq α]

theorem eraseDups_concat (l : List α) (a : α) :
    (l ++ [a]).eraseDups = if a ∈ l then l.eraseDups else l.eraseDups ++ [a] := by
  rw [List.eraseDups_append]
  split
  · rename_i old
    simp [List.removeAll, old]
  · rename_i new
    simp [List.removeAll, new, List.eraseDups_cons]

theorem nodup_eraseDups (l : List α) : l.eraseDups.Nodup := by
  induction l using List.reverseRecOn with
  | nil => exact .nil
  | append_singleton l a ih =>
    rw [eraseDups_concat]
    split
    · exact ih
    · rename_i new
      simpa using ih.concat (by simpa using new)

end FirstUses

/-! ## Names that are asked for -/

namespace OperationKind

def property? : OperationKind → Option String
  | property name => some name
  | _ => none

def sampler? : OperationKind → Option String
  | sampler name => some name
  | _ => none

@[simp] theorem property?_eq_some_iff {o : OperationKind} {name : String} :
    o.property? = some name ↔ o = .property name := by
  cases o <;> simp [property?]

@[simp] theorem sampler?_eq_some_iff {o : OperationKind} {name : String} :
    o.sampler? = some name ↔ o = .sampler name := by
  cases o <;> simp [sampler?]

end OperationKind

namespace Request

/-- The properties that are read. -/
def properties (rs : List Request) : List String := (kinds rs).filterMap OperationKind.property?

/-- The samplers that are passed on. -/
def samplers (rs : List Request) : List String := (kinds rs).filterMap OperationKind.sampler?

theorem mem_properties_iff {rs : List Request} {name : String} : name ∈ properties rs ↔ .property name ∈ kinds rs := by
  simp [properties]

theorem mem_samplers_iff {rs : List Request} {name : String} : name ∈ samplers rs ↔ .sampler name ∈ kinds rs := by
  simp [samplers]

end Request

namespace Program

inductive Declaration where
  | uniform (name type : String)
  | sampler (name : String) (slot : Nat)

namespace Declaration

def uniform? : Declaration → Option String
  | uniform name _ => some name
  | sampler .. => none

def sampler? : Declaration → Option (String × Nat)
  | uniform .. => none
  | sampler name slot => some (name, slot)

def symbol (b : Builder) : Declaration → String
  | uniform name _ => b.symbol "u" name
  | sampler name _ => b.symbol "s" name

def line (b : Builder) : Declaration → String
  | uniform name type => "uniform " ++ type ++ " " ++ b.symbol "u" name ++ ";"
  | sampler name slot => "SAMPLER2D(" ++ b.symbol "s" name ++ ", " ++ toString slot ++ ");"

def entry (b : Builder) (d : Declaration) : String × String := (d.symbol b, d.line b)

theorem entry_uniform (b : Builder) (name type : String) : entry b (.uniform name type)
    = (b.symbol "u" name, "uniform " ++ type ++ " " ++ b.symbol "u" name ++ ";") := rfl

theorem entry_sampler (b : Builder) (name : String) (slot : Nat) : entry b (.sampler name slot)
    = (b.symbol "s" name, "SAMPLER2D(" ++ b.symbol "s" name ++ ", " ++ toString slot ++ ");") := rfl

theorem entry_congr {b b' : Builder} (settings : b'.settings = b.settings) : entry b' = entry b := by
  have symbols : b'.symbol = b.symbol := by
    funext letter name
    rw [Builder.symbol, Builder.symbol, settings]
  funext d
  cases d with
  | uniform name type => rw [entry_uniform, entry_uniform, symbols]
  | sampler name slot => rw [entry_sampler, entry_sampler, symbols]

end Declaration

namespace Builder

variable {b b' : Builder} {us ss : List String} {ds : List Declaration}

/-! ## Symbols -/

theorem symbol_inj {letter letter' name name' : String} (same : b.symbol letter name = b.symbol letter' name')
    (width : letter.toList.length = letter'.toList.length) : letter = letter' ∧ name = name' := by
  have chars := congrArg String.toList same
  simp only [symbol, String.toList_append, List.append_assoc] at chars
  obtain ⟨first, rest⟩ := List.append_inj chars width
  exact ⟨String.toList_inj.1 first, String.toList_inj.1 (by simpa using rest)⟩

theorem symbol_uniform_iff {d : Declaration} {name : String} :
    d.symbol b = b.symbol "u" name ↔ d.uniform? = some name := by
  constructor
  · intro same
    cases d with
    | uniform name' type => exact congrArg some (symbol_inj same (by simp)).2
    | sampler name' slot =>
      have letters : "s" = "u" := (symbol_inj (b := b) same (by simp)).1
      exact absurd letters (by decide)
  · intro own
    cases d <;> cases own
    rfl

theorem symbol_sampler_iff {d : Declaration} {name : String} :
    d.symbol b = b.symbol "s" name ↔ d.sampler?.map Prod.fst = some name := by
  constructor
  · intro same
    cases d with
    | uniform name' type =>
      have letters : "u" = "s" := (symbol_inj (b := b) same (by simp)).1
      exact absurd letters (by decide)
    | sampler name' slot => exact congrArg some (symbol_inj same (by simp)).2
  · intro own
    cases d <;> cases own
    rfl

/-! ## Declarations -/

theorem declare_keys (b : Builder) (name line : String) : (b.declare name line).declarations.keys
    = if name ∈ b.declarations.keys then b.declarations.keys else b.declarations.keys ++ [name] := by
  unfold declare
  split
  · rename_i known
    rw [if_pos (Table.contains_iff.1 known)]
  · exact Table.keys_insert ..

theorem declare_prefix (b : Builder) (name line : String) :
    (b.declare name line).settings = b.settings
      ∧ b.declarations.keys <+: (b.declare name line).declarations.keys := by
  rw [declare_keys]
  refine ⟨by unfold declare; split <;> rfl, ?_⟩
  split
  · exact List.prefix_rfl
  · exact List.prefix_append ..

/-- The declarations of a builder that was asked for some uniforms and samplers, latest last. -/
structure Declared (b : Builder) (us ss : List String) (ds : List Declaration) : Prop where
  entries : b.declarations.entries = ds.map (Declaration.entry b)
  uniforms : ds.filterMap Declaration.uniform? = us.eraseDups
  samplers : ds.filterMap Declaration.sampler? = ss.eraseDups.zipIdx
  next : b.samplers = ss.eraseDups.length

namespace Declared

variable (h : b.Declared us ss ds)
include h

theorem keys : b.declarations.keys = ds.map (Declaration.symbol b) := by
  rw [Table.keys, h.entries, List.map_map]
  rfl

theorem uniform_iff {name : String} : b.symbol "u" name ∈ b.declarations.keys ↔ name ∈ us := by
  rw [h.keys, List.mem_map, ← List.mem_eraseDups, ← h.uniforms, List.mem_filterMap]
  exact exists_congr fun d => and_congr_right fun _ => symbol_uniform_iff

theorem sampler_iff {name : String} : b.symbol "s" name ∈ b.declarations.keys ↔ name ∈ ss := by
  have names : (ds.filterMap Declaration.sampler?).map Prod.fst = ss.eraseDups := by
    rw [h.samplers, List.zipIdx_map_fst]
  rw [h.keys, List.mem_map, ← List.mem_eraseDups, ← names, List.map_filterMap, List.mem_filterMap]
  exact exists_congr fun d => and_congr_right fun _ => symbol_sampler_iff

theorem keeps (settings : b'.settings = b.settings) (declarations : b'.declarations = b.declarations)
    (samplers : b'.samplers = b.samplers) : b'.Declared us ss ds :=
  ⟨by rw [declarations, h.entries, Declaration.entry_congr settings], h.uniforms, h.samplers, samplers.trans h.next⟩

theorem entries_added {d : Declaration} (settings : b'.settings = b.settings)
    (added : b'.declarations.entries = b.declarations.entries ++ [d.entry b]) :
    b'.declarations.entries = (ds ++ [d]).map (Declaration.entry b') := by
  rw [added, h.entries, Declaration.entry_congr settings, List.map_append]
  rfl

theorem declareUniform (name type : String) :
    ∃ ds', (b.declareUniform (b.symbol "u" name) type).Declared (us ++ [name]) ss ds' := by
  unfold Builder.declareUniform declare
  by_cases known : name ∈ us
  · rw [if_pos (Table.contains_iff.2 (h.uniform_iff.2 known))]
    exact ⟨ds, h.entries, by rw [eraseDups_concat, if_pos known, h.uniforms], h.samplers, h.next⟩
  · have fresh : b.symbol "u" name ∉ b.declarations.keys := fun declared => known (h.uniform_iff.1 declared)
    rw [if_neg (by rwa [Table.contains_iff])]
    refine ⟨ds ++ [.uniform name type], h.entries_added rfl ?_, ?_, ?_, h.next⟩
    · rw [Declaration.entry_uniform]
      exact Table.entries_insert_of_new fresh
    · rw [List.filterMap_append, h.uniforms, eraseDups_concat, if_neg known]
      rfl
    · rw [List.filterMap_append, h.samplers]
      exact List.append_nil _

theorem declareSampler (name : String) : ∃ ds', (b.declareSampler (b.symbol "s" name)).Declared us (ss ++ [name]) ds' := by
  unfold Builder.declareSampler declare
  by_cases known : name ∈ ss
  · rw [if_pos (Table.contains_iff.2 (h.sampler_iff.2 known))]
    refine ⟨ds, h.entries, h.uniforms, ?_, ?_⟩
    · rw [eraseDups_concat, if_pos known, h.samplers]
    · rw [eraseDups_concat, if_pos known, h.next]
  · have fresh : b.symbol "s" name ∉ b.declarations.keys := fun declared => known (h.sampler_iff.1 declared)
    rw [if_neg (by rwa [Table.contains_iff]), if_neg (by rwa [Table.contains_iff])]
    refine ⟨ds ++ [.sampler name b.samplers], h.entries_added rfl ?_, ?_, ?_, ?_⟩
    · rw [Declaration.entry_sampler]
      exact Table.entries_insert_of_new fresh
    · rw [List.filterMap_append, h.uniforms]
      exact List.append_nil _
    · rw [List.filterMap_append, h.samplers, eraseDups_concat, if_neg known, List.zipIdx_append, h.next, Nat.zero_add]
      rfl
    · rw [eraseDups_concat, if_neg known, List.length_append, ← h.next]
      rfl

end Declared

theorem Declared.send {rs : List Request} (h : b.Declared (Request.properties rs) (Request.samplers rs) ds)
    (r : Request) :
    ∃ ds', (r.send b).1.Declared (Request.properties (rs ++ [r])) (Request.samplers (rs ++ [r])) ds' := by
  simp only [Request.properties, Request.samplers, Request.kinds_append, List.filterMap_append]
  cases r with
  | group name members =>
    refine ⟨ds, ?_⟩
    rw [show Request.kinds [.group name members] = [] from rfl, List.filterMap_nil, List.filterMap_nil,
      List.append_nil, List.append_nil]
    exact h.keeps rfl rfl rfl
  | operation op =>
    rw [show Request.kinds [.operation op] = [op.kind] from rfl]
    suffices lowered : ∃ ds', (b.lower op).1.Declared
        ((Request.kinds rs).filterMap OperationKind.property? ++ [op.kind].filterMap OperationKind.property?)
        ((Request.kinds rs).filterMap OperationKind.sampler? ++ [op.kind].filterMap OperationKind.sampler?) ds' by
      obtain ⟨ds', h'⟩ := lowered
      exact ⟨ds', h'.keeps rfl rfl rfl⟩
    unfold lower
    cases op.kind with
    | property name =>
      obtain ⟨ds', h'⟩ := h.declareUniform name op.type.base
      exact ⟨ds', (List.append_nil (Request.samplers rs)).symm ▸ h'.keeps rfl rfl rfl⟩
    | sampler name => exact (List.append_nil (Request.properties rs)).symm ▸ h.declareSampler name
    | _ =>
      exact ⟨ds, (List.append_nil (Request.properties rs)).symm ▸ (List.append_nil (Request.samplers rs)).symm ▸
        h.keeps rfl rfl rfl⟩

/-- Whatever is asked of a new builder, the declarations are the names that were asked for. -/
theorem declared_sendAll (settings : Settings) (conversions : ConversionTable) (rs : List Request) :
    ∃ ds, (sendAll (Builder.offering settings conversions) rs).1.Declared (Request.properties rs)
      (Request.samplers rs) ds := by
  refine Request.sendAll_induct
    (motive := fun (b : Builder) rs => ∃ ds, b.Declared (Request.properties rs) (Request.samplers rs) ds)
    ⟨[], rfl, rfl, rfl, rfl⟩ (fun b rs r known => ?_) rs
  obtain ⟨ds, h⟩ := known
  exact h.send r

end Builder

end Program

end FrameGraph
