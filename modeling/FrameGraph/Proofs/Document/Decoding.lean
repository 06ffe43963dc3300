/-
  FrameGraph.Proofs.Document.Decoding: what is encoded decodes to what was stored of it.

  Each kind of datum has its own statement, from identifiers up to whole documents
  (`document_encoded`). Marks, values and the memories of inputs are not stored: what comes back
  is the graph without them (`Graph.stored`). Tables come back with their entries in order.
-/

import FrameGraph.Document.Decode
import FrameGraph.Document.Encode
import FrameGraph.Graph.Check
import FrameGraph.Proofs.Document.Identifiers

namespace FrameGraph

/-- What a document holds of a graph. -/
def Graph.stored (g : Graph) : Graph :=
  { g.resetEvaluation with inputPins := forgetConnections g.inputPins }

namespace Decode

open Ron (Decoder Value)
open Ron.Decode (field single? record)

/-! ## Lists and tables -/

theorem mapM_encoded {α β : Type} {decode : Decoder β} {encode : α → Value} {image : α → β}
    (inverse : ∀ a, decode (encode a) = some (image a)) (as : List α) :
    (as.map encode).mapM decode = some (as.map image) := by
  induction as with
  | nil => rfl
  | cons a as ih => simp [inverse, ih]

theorem list_encoded {α β : Type} {decode : Decoder β} {encode : α → Value} {image : α → β}
    (inverse : ∀ a, decode (encode a) = some (image a)) (as : List α) :
    Ron.Decode.list decode (.list (as.map encode)) = some (as.map image) :=
  mapM_encoded inverse as

theorem foldl_insert {κ α : Type} [DecidableEq κ] {entries : List (κ × α)} {t : Table κ α}
    (distinct : (t.entries.map Prod.fst ++ entries.map Prod.fst).Nodup) :
    (entries.foldl (fun t e => t.insert e.1 e.2) t).entries = t.entries ++ entries := by
  induction entries generalizing t with
  | nil => simp
  | cons e entries ih =>
    have new : e.1 ∉ t.keys := by
      intro h
      exact (List.nodup_append.1 distinct).2.2 e.1 h e.1 (by simp) rfl
    have grown := Table.entries_insert_of_new (v := e.2) new
    rw [List.foldl_cons, ih, grown, List.append_assoc]
    · rfl
    · rw [grown]
      simpa using distinct

theorem ofList_entries {κ α : Type} [DecidableEq κ] (t : Table κ α) : Table.ofList t.entries = t := by
  apply Table.ext
  rw [Table.ofList, foldl_insert (by simpa [Table.empty] using t.nodup)]
  rfl

theorem table_encoded {κ α : Type} [DecidableEq κ] {key : Decoder κ} {value : Decoder α}
    {encodeKey : κ → Value} {encodeValue : α → Value} {image : α → α}
    (keys : ∀ k, key (encodeKey k) = some k) (values : ∀ a, value (encodeValue a) = some (image a))
    (t : Table κ α) : table key value (Encode.table encodeKey encodeValue t) = some (t.map image) := by
  have entries : ∀ es : List (κ × α), (es.map fun e => (encodeKey e.1, encodeValue e.2)).mapM
      (fun e => do return (← key e.1, ← value e.2)) = some (es.map fun e => (e.1, image e.2)) := by
    intro es
    induction es with
    | nil => rfl
    | cons e es ih =>
      rw [List.map_cons, List.mapM_cons, ih]
      simp [keys, values]
  have back : Table.ofList (t.entries.map fun e => (e.1, image e.2)) = t.map image :=
    ofList_entries (t.map image)
  simp only [table, Encode.table, Ron.Decode.map, entries, Option.map_some, back]

/-! ## Pins and kinds -/

theorem nodeId_encoded (i : NodeId) : nodeId (Encode.nodeId i) = some i := rfl

theorem pinId_encoded (i : PinId) : pinId (Encode.pinId i) = some i := rfl

theorem linkId_encoded (i : LinkId) : linkId (Encode.linkId i) = some i := rfl

theorem provider_encoded (p : Provider) : provider (.word (Encode.providerName p)) = some p := by
  cases p <;> rfl

theorem kind_encoded (k : Kind) : kind (Encode.kind k) = some k := by
  cases k with
  | provider p => exact congrArg (Option.map Kind.provider) (provider_encoded p)
  | _ => rfl

/-! ## Parts of a graph -/

theorem node_encoded (n : Node) : node (Encode.node n) = some { n with evaluated := false } := by
  have inputs := list_encoded pinId_encoded n.inputs
  have outputs := list_encoded pinId_encoded n.outputs
  simp only [List.map_id'] at inputs outputs
  simp [node, Encode.node, Value.plainRecord, record, field, single?, nodeId_encoded, kind_encoded, inputs,
    outputs, Encode.position, position, Ron.Decode.pair, Ron.Decode.single]

theorem inputPin_encoded (p : InputPin) : inputPin (Encode.inputPin p) = some { p with connection := none } := rfl

theorem outputPin_encoded (p : OutputPin) : outputPin (Encode.outputPin p) = some { p with value := none } := rfl

theorem link_encoded (l : Link) : link (Encode.link l) = some l := rfl

theorem graphId_encoded (u : Uuid) : graphId (.wrapped (.text u.hyphenated)) = some u := by
  simp [graphId, Value.wrapped, Ron.Decode.wrapped, Ron.Decode.text, Uuid.parse?_hyphenated]

theorem terminal_encoded (t : Option NodeId) :
    Ron.Decode.option nodeId (.ofOption (t.map Encode.nodeId)) = some t := by
  cases t <;> rfl

/-! ## Graphs -/

theorem graph_encoded (g : Graph) : graph (Encode.graph g) = some g.stored := by
  have nodes := table_encoded nodeId_encoded node_encoded g.nodes
  have inputs := table_encoded pinId_encoded inputPin_encoded g.inputPins
  have outputs := table_encoded pinId_encoded outputPin_encoded g.outputPins
  have links := table_encoded linkId_encoded link_encoded g.links
  have same : g.links.map (fun l => l) = g.links := Table.ext (by simp [Table.map, Table.mapWithKey])
  simp [graph, Encode.graph, Value.plainRecord, record, field, Ron.Decode.fieldOr, single?, graphId_encoded,
    terminal_encoded, nodes, inputs, outputs, links, same, Ron.Decode.text, Ron.Decode.nat, Graph.stored,
    Graph.resetEvaluation, Graph.forgetConnections]

theorem document_encoded (version : Nat) (g : Graph) :
    document (Encode.document version g) = some (version, g.stored) := by
  simp [document, Encode.document, Value.plainRecord, record, field, single?, Ron.Decode.nat, graph_encoded]

end Decode

end FrameGraph
