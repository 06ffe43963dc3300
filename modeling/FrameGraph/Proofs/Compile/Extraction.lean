/-
  FrameGraph.Proofs.Compile.Extraction: a pipeline is the table with its groups written out.

  Taking a pipeline renumbers the operations, since groups are left out, and puts in the place
  of a group the operations under it. `Transparent` says what comes out without following how it
  is found: the same operations in the same order, and each operand by the positions of what it
  stands for (`Resolves`), a group being flattened from left to right (`Flattens`). Handles are
  strictly sorted among the recordings (`recordings_sorted`), so a reference to an earlier entry
  becomes one to an earlier position (`Emitted.earlier`). Since the table refers backward, groups
  end before the depth does (`flatten_answers`) and the pipeline is found
  (`transfer_transparent`).
-/

import FrameGraph.Proofs.Compile.References
import FrameGraph.Pipeline.Builder

namespace FrameGraph

open Evaluator (arrayMembers? operation?)

/-- The positions that an operand names, in order. -/
def Operand.positions : Operand → List Nat
  | single index => [index]
  | many indices => indices

namespace Pipeline.Builder

/-! ## What a table stands for -/

/-- The operations with the handles given out for them. -/
def recordings (b : Builder) : List (Handle × Operation) :=
  b.entries.toList.zipIdx.filterMap fun e => e.1.operation?.map (Prod.mk ⟨e.2⟩)

/-- The value is an operation, and `k` others were recorded before it. -/
def Emitted (b : Builder) (value : Handle) (k : Nat) : Prop := ∃ op, b.recordings[k]? = some (value, op)

/-- The positions of all operations under some values, from left to right. -/
inductive Flattens (b : Builder) : List Handle → List Nat → Prop
  | nil : Flattens b [] []
  | operation {value : Handle} {values : List Handle} {k : Nat} {ks : List Nat}
      (emitted : b.Emitted value k) (rest : Flattens b values ks) : Flattens b (value :: values) (k :: ks)
  | group {value : Handle} {members values : List Handle} {js ks : List Nat}
      (found : arrayMembers? b value = some members) (inner : Flattens b members js)
      (rest : Flattens b values ks) : Flattens b (value :: values) (js ++ ks)

inductive Resolves (b : Builder) : Handle → Operand → Prop
  | operation {value : Handle} {k : Nat} (emitted : b.Emitted value k) : Resolves b value (.single k)
  | group {value : Handle} {members : List Handle} {ks : List Nat} (found : arrayMembers? b value = some members)
      (inner : Flattens b members ks) : Resolves b value (.many ks)

/-- The operation as it stands in a pipeline. -/
structure Extracts (b : Builder) (recorded : Operation) (op : PipelineOperation) : Prop where
  kind : op.kind = recorded.kind
  name : op.name = recorded.name
  type : op.type = recorded.type
  inputs : List.Forall₂ b.Resolves recorded.operands op.inputs

/-- The operations of the table with its groups written out, each reading from earlier ones. -/
structure Transparent (b : Builder) (ops : List PipelineOperation) : Prop where
  each : List.Forall₂ b.Extracts (b.recordings.map Prod.snd) ops
  earlier : ∀ (i : Nat) (op : PipelineOperation), ops[i]? = some op →
    ∀ operand ∈ op.inputs, ∀ k ∈ operand.positions, k < i

/-! ## Handles and positions -/

section Recordings

variable (b : Builder)

theorem recordings_operations : b.recordings.map Prod.snd = b.operations := by
  have projected : (fun e : Entry × Nat => (e.1.operation?.map (Prod.mk (Handle.mk e.2))).map Prod.snd)
      = Entry.operation? ∘ Prod.fst := by
    funext e
    simp only [Option.map_map, Function.comp_def, Option.map_id']
  rw [recordings, List.map_filterMap, projected, ← List.filterMap_map, List.zipIdx_map_fst]
  rfl

theorem recordings_sorted : b.recordings.Pairwise fun r r' => r.1.index < r'.1.index := by
  have places : b.entries.toList.zipIdx.Pairwise fun e e' => e.2 < e'.2 := by
    rw [← List.pairwise_map, List.zipIdx_map_snd]
    exact List.pairwise_lt_range' ..
  refine places.filterMap _ ?_
  intro e e' lt r made r' made'
  obtain ⟨op, -, rfl⟩ := Option.map_eq_some_iff.1 made
  obtain ⟨op', -, rfl⟩ := Option.map_eq_some_iff.1 made'
  exact lt

end Recordings

variable {b : Builder} {value value' : Handle} {op : Operation} {k k' : Nat}

theorem mem_recordings (member : (value, op) ∈ b.recordings) : b.entries[value.index]? = some (.operation op) := by
  obtain ⟨⟨e, i⟩, listed, made⟩ := List.mem_filterMap.1 member
  obtain ⟨op', recorded, same⟩ := Option.map_eq_some_iff.1 made
  cases same
  have place := List.mem_zipIdx_iff_getElem?.1 listed
  rw [Array.getElem?_toList] at place
  cases e with
  | operation op => cases recorded; exact place
  | group name members => cases recorded

/-- An operation's position counts the operations before it. -/
theorem recordings_position (found : b.entries[value.index]? = some (.operation op)) :
    b.recordings[position b.entries value.index]? = some (value, op) := by
  have place : b.entries.toList[value.index]? = some (.operation op) := by rw [Array.getElem?_toList, found]
  obtain ⟨bound, here⟩ := List.getElem?_eq_some_iff.1 place
  have split : b.entries.toList = b.entries.toList.take value.index
      ++ .operation op :: b.entries.toList.drop (value.index + 1) := by
    rw [← here, ← List.drop_eq_getElem_cons, List.take_append_drop]
  have before : ((b.entries.toList.take value.index).zipIdx.filterMap fun e =>
      e.1.operation?.map (Prod.mk (Handle.mk e.2))).length = position b.entries value.index := by
    rw [List.length_filterMap_eq_countP, position]
    conv_rhs => rw [← List.zipIdx_map_fst 0 (b.entries.toList.take value.index), List.countP_map]
    simp only [Option.isSome_map, Function.comp_def]
  have length : (b.entries.toList.take value.index).length = value.index := by
    rw [List.length_take]; omega
  rw [recordings, split, List.zipIdx_append, List.filterMap_append, List.getElem?_append_right (by omega), before,
    length, List.zipIdx_cons, Nat.sub_self]
  simp [Entry.operation?]

theorem recordings_earlier {i j : Nat} {r r' : Handle × Operation} (first : b.recordings[i]? = some r)
    (second : b.recordings[j]? = some r') (lt : i < j) : r.1.index < r'.1.index := by
  obtain ⟨hi, rfl⟩ := List.getElem?_eq_some_iff.1 first
  obtain ⟨hj, rfl⟩ := List.getElem?_eq_some_iff.1 second
  exact List.pairwise_iff_getElem.1 b.recordings_sorted i j hi hj lt

theorem Emitted.recorded (h : b.Emitted value k) : ∃ op, operation? b value = some op := by
  obtain ⟨op, place⟩ := h
  refine ⟨op, Option.bind_eq_some_iff.2 ⟨_, mem_recordings (List.mem_of_getElem? place), rfl⟩⟩

theorem Emitted.unique (h : b.Emitted value k) (h' : b.Emitted value k') : k = k' := by
  obtain ⟨op, place⟩ := h
  obtain ⟨op', place'⟩ := h'
  rcases Nat.lt_trichotomy k k' with lt | rfl | lt
  · exact absurd (recordings_earlier place place' lt) (Nat.lt_irrefl _)
  · rfl
  · exact absurd (recordings_earlier place' place lt) (Nat.lt_irrefl _)

/-- Positions are in the order of the table. -/
theorem Emitted.earlier (h : b.Emitted value k) (h' : b.Emitted value' k') (lt : value.index < value'.index) :
    k < k' := by
  obtain ⟨op, place⟩ := h
  obtain ⟨op', place'⟩ := h'
  rcases Nat.lt_trichotomy k k' with before | rfl | after
  · exact before
  · cases place.symm.trans place'
    exact absurd lt (Nat.lt_irrefl _)
  · exact absurd (recordings_earlier place' place after) (Nat.lt_asymm lt)

/-! ## What is written out -/

section Flattening

variable {values values' : List Handle} {js ks : List Nat} {operand operand' : Operand}

theorem Flattens.cons (first : b.Flattens [value] js) (rest : b.Flattens values ks) :
    b.Flattens (value :: values) (js ++ ks) := by
  cases first with
  | operation emitted none =>
    cases none
    exact .operation emitted rest
  | group found inner none =>
    cases none
    rw [List.append_nil]
    exact .group found inner rest

theorem Flattens.join {kss : List (List Nat)} (each : List.Forall₂ (fun value ks => b.Flattens [value] ks) values kss) :
    b.Flattens values kss.flatten := by
  induction each with
  | nil => exact .nil
  | cons first _ rest => exact first.cons rest

/-- An operation is not a group. -/
theorem Emitted.alone (h : b.Emitted value k) : arrayMembers? b value = none := by
  obtain ⟨op, recorded⟩ := h.recorded
  exact LawfulEvaluator.exclusive recorded

theorem Flattens.unique (h : b.Flattens values js) (h' : b.Flattens values ks) : js = ks := by
  induction h generalizing ks with
  | nil =>
    cases h'
    rfl
  | operation emitted _ ih =>
    cases h' with
    | operation emitted' rest' => rw [emitted.unique emitted', ih rest']
    | group found' => exact absurd (emitted.alone.symm.trans found') nofun
  | group found _ _ inner ih =>
    cases h' with
    | operation emitted' => exact absurd (emitted'.alone.symm.trans found) nofun
    | group found' inner' rest' =>
      cases found.symm.trans found'
      rw [inner inner', ih rest']

theorem Resolves.unique (h : b.Resolves value operand) (h' : b.Resolves value operand') : operand = operand' := by
  cases h with
  | operation emitted =>
    cases h' with
    | operation emitted' => rw [emitted.unique emitted']
    | group found' => exact absurd (emitted.alone.symm.trans found') nofun
  | group found inner =>
    cases h' with
    | operation emitted' => exact absurd (emitted'.alone.symm.trans found) nofun
    | group found' inner' =>
      cases found.symm.trans found'
      rw [inner.unique inner']

theorem Transparent.unique {ops ops' : List PipelineOperation} (h : b.Transparent ops) (h' : b.Transparent ops') :
    ops = ops' := by
  have resolved : Relator.RightUnique b.Resolves := fun _ _ _ => Resolves.unique
  have extracted : Relator.RightUnique b.Extracts := by
    intro recorded ⟨kind, name, type, inputs⟩ ⟨kind', name', type', inputs'⟩ made made'
    obtain ⟨rfl, rfl, rfl, reads⟩ := made
    obtain ⟨rfl, rfl, rfl, reads'⟩ := made'
    have same : inputs = inputs' := resolved.forall₂ reads reads'
    rw [same]
  exact extracted.forall₂ h.each h'.each

end Flattening

/-! ## Taking the pipeline -/

section Backward

variable (backward : b.Backward)
include backward

/-- Under a value stand operations recorded no later than it. -/
theorem Flattens.before {values : List Handle} {ks : List Nat} (h : b.Flattens values ks) {bound : Nat}
    (low : ∀ v ∈ values, v.index < bound) : ∀ k ∈ ks, ∃ v, b.Emitted v k ∧ v.index < bound := by
  induction h with
  | nil =>
    intro k none
    cases none
  | @operation value values k ks emitted _ ih =>
    obtain ⟨first, rest⟩ := List.forall_mem_cons.1 low
    exact List.forall_mem_cons.2 ⟨⟨value, emitted, first⟩, ih rest⟩
  | group found _ _ inner ih =>
    obtain ⟨first, rest⟩ := List.forall_mem_cons.1 low
    have under := inner fun m member => Nat.lt_trans (backward.earlier found m member) first
    exact List.forall_mem_append.2 ⟨under, ih rest⟩

theorem Resolves.before {operand : Operand} (h : b.Resolves value operand) {bound : Nat} (low : value.index < bound) :
    ∀ k ∈ operand.positions, ∃ v, b.Emitted v k ∧ v.index < bound := by
  cases h with
  | operation emitted => exact List.forall_mem_singleton.2 ⟨value, emitted, low⟩
  | group found inner =>
    exact inner.before backward fun m member => Nat.lt_trans (backward.earlier found m member) low

/-- As many levels are enough as there are entries up to the value. -/
theorem flatten_answers (depth : Nat) :
    ∀ value, b.Has value → value.index < depth →
      ∃ ks, flatten b.entries depth value = .ok ks ∧ b.Flattens [value] ks := by
  induction depth with
  | zero =>
    intro value _ deep
    exact absurd deep (Nat.not_lt_zero _)
  | succ depth ih =>
    intro value has deep
    obtain ⟨e, place⟩ : ∃ e, b.entries[value.index]? = some e := ⟨_, Array.getElem?_eq_getElem has⟩
    cases e with
    | operation op =>
      refine ⟨[position b.entries value.index], ?_, .operation ⟨op, recordings_position place⟩ .nil⟩
      rw [flatten, place]
    | group name members =>
      have found : arrayMembers? b value = some members := Option.bind_eq_some_iff.2 ⟨_, place, rfl⟩
      obtain ⟨kss, made, each⟩ := mapM_each fun m member =>
        ih m (backward.members found m member) (Nat.lt_of_lt_of_le (backward.earlier found m member) (by omega))
      refine ⟨kss.flatten ++ [], ?_, .group found (.join each) .nil⟩
      rw [flatten, place, List.append_nil]
      simp only [made]
      rfl

theorem resolve_answers (has : b.Has value) :
    ∃ operand, resolve b.entries value = .ok operand ∧ b.Resolves value operand := by
  obtain ⟨ks, flat, flattens⟩ := flatten_answers backward _ value has has
  obtain ⟨e, place⟩ : ∃ e, b.entries[value.index]? = some e := ⟨_, Array.getElem?_eq_getElem has⟩
  cases e with
  | operation op =>
    refine ⟨.single (position b.entries value.index), ?_, .operation ⟨op, recordings_position place⟩⟩
    rw [resolve, flat, place]
    rfl
  | group name members =>
    have found : arrayMembers? b value = some members := Option.bind_eq_some_iff.2 ⟨_, place, rfl⟩
    refine ⟨.many ks, by rw [resolve, flat, place]; rfl, ?_⟩
    cases flattens with
    | operation emitted => exact absurd (emitted.alone.symm.trans found) nofun
    | group found inner none =>
      cases none
      rw [List.append_nil]
      exact .group found inner

theorem resolveOperation_answers (known : ∀ h ∈ op.operands, b.Has h) :
    ∃ made, resolveOperation b.entries op = .ok made ∧ b.Extracts op made := by
  obtain ⟨inputs, made, each⟩ := mapM_each fun h member => resolve_answers backward (known h member)
  refine ⟨⟨op.kind, op.name, op.type, inputs⟩, ?_, rfl, rfl, rfl, each⟩
  rw [resolveOperation, made]
  rfl

theorem operands_earlier {r : Handle × Operation} (member : r ∈ b.recordings) :
    ∀ h ∈ r.2.operands, h.index < r.1.index :=
  backward r.1.index _ (mem_recordings member)

theorem extracts_earlier {ops : List PipelineOperation}
    (extracts : List.Forall₂ b.Extracts (b.recordings.map Prod.snd) ops) {i : Nat} {op : PipelineOperation}
    (place : ops[i]? = some op) : ∀ operand ∈ op.inputs, ∀ k ∈ operand.positions, k < i := by
  intro operand reads k named
  rw [List.forall₂_map_left_iff] at extracts
  obtain ⟨r, recorded, extracted⟩ := forall₂_getElem? extracts place
  obtain ⟨j, reads⟩ := List.getElem?_of_mem reads
  obtain ⟨h, listed, resolves⟩ := forall₂_getElem? extracted.inputs reads
  have low := operands_earlier backward (List.mem_of_getElem? recorded) h (List.mem_of_getElem? listed)
  obtain ⟨v, under, lower⟩ := resolves.before backward low k named
  exact under.earlier ⟨r.2, recorded⟩ lower

/-- What is recorded can be extracted, since its operands were recorded before it. -/
theorem operations_extract : ∃ ops, b.operations.mapM (resolveOperation b.entries) = .ok ops ∧ b.Transparent ops := by
  rw [← b.recordings_operations]
  have each : ∀ op ∈ b.recordings.map Prod.snd, ∃ made,
      resolveOperation b.entries op = .ok made ∧ b.Extracts op made := by
    intro op member
    obtain ⟨r, listed, rfl⟩ := List.mem_map.1 member
    have has : b.Has r.1 := (Array.getElem?_eq_some_iff.1 (mem_recordings listed)).1
    exact resolveOperation_answers backward fun h operand =>
      Nat.lt_trans (operands_earlier backward listed h operand) has
  obtain ⟨ops, made, extracts⟩ := mapM_each each
  exact ⟨ops, made, extracts, fun _ _ => extracts_earlier backward extracts⟩

end Backward

theorem transfer_transparent (backward : b.Backward) (untaken : b.taken = false) :
    ∃ ops, b.Transparent ops ∧ ∀ sink, (b.transfer sink).result = .ok (sink.append ops) := by
  obtain ⟨ops, made, transparent⟩ := operations_extract backward
  refine ⟨ops, transparent, fun sink => ?_⟩
  rw [transfer_result, if_neg (by rw [untaken]; decide), made]
  rfl

/-- Whatever graphs were evaluated, and however the evaluations ended, the pipeline is the table
with its groups written out and nothing else. -/
theorem evaluating_extracts (conversions : Conversions) (trace : Bool) (gs : List Graph) :
    ∃ ops, (∀ ops', ((new conversions trace).evaluating gs).Transparent ops' ↔ ops' = ops)
      ∧ ((new conversions trace).evaluating gs).extract.result = .ok ⟨ops⟩
      ∧ ∀ sink, (((new conversions trace).evaluating gs).transfer sink).result = .ok (sink.append ops) := by
  have start : (new conversions trace).Backward := backward_of_empty rfl
  have continues := continues_evaluating start (offers_new conversions trace) gs
  obtain ⟨ops, transparent, taking⟩ := transfer_transparent continues.backward continues.taken
  refine ⟨ops, fun ops' => ⟨fun h => h.unique transparent, fun h => h ▸ transparent⟩, ?_, taking⟩
  rw [extract_result, taking]
  rfl

/-- A group within a group, one of its members beside it. -/
example :
    let eye := Operation.plain .eyeFromCamera (.scalar Base.eye) []
    let lock := Operation.plain .render .untyped [⟨3⟩, ⟨1⟩]
    (transfer ⟨#[.operation eye, .operation eye, .group "Concat" [⟨0⟩, ⟨1⟩], .group "Concat" [⟨2⟩, ⟨0⟩],
        .operation lock], .ofList [], false, false⟩ .empty).result
      = .ok ⟨[⟨.eyeFromCamera, "EyeFromCamera", .scalar Base.eye, []⟩,
          ⟨.eyeFromCamera, "EyeFromCamera", .scalar Base.eye, []⟩,
          ⟨.render, "Render", .untyped, [.many [0, 1, 0], .single 1]⟩]⟩ := rfl

end Pipeline.Builder

end FrameGraph
