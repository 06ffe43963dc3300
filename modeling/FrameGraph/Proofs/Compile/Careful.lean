/-
  FrameGraph.Proofs.Compile.Careful: requests are made of values, and leaves always compile.

  A value is an operation with a result, or a group of values (`Live`). In whatever order nodes
  are compiled and however the pass ends, each request that reaches the back end is made of
  values at the time when it is sent (`Careful`). A leaf names something outside the graph, with
  one operation. No other node and no conversion records such an operation, and its rule cannot
  fail: so these operations are the leaves among the compiled nodes, exactly (`evaluate_careful`).
-/

import FrameGraph.Proofs.Compile.Custody
import FrameGraph.Proofs.Compile.Faithful
import FrameGraph.Proofs.Compile.Requests

namespace FrameGraph

open Evaluator (addOperation addArray operation? arrayMembers? conversion?)
open Request (sendAll)

variable {ε : Type} [Evaluator ε]

/-! ## Values -/

inductive Live (b : ε) : Handle → Prop
  | operation {h : Handle} {op : Operation} : operation? b h = some op → op.kind ≠ .fragmentColor → Live b h
  | group {h : Handle} {ms : List Handle} : arrayMembers? b h = some ms → (∀ m ∈ ms, Live b m) → Live b h

theorem Live.mono {b b' : ε} (grows : Extends b b') {h : Handle} (live : Live b h) : Live b' h := by
  induction live with
  | operation found result => exact .operation (grows.operation found) result
  | group found _ ih => exact .group (grows.members found) ih

theorem Live.members [LawfulEvaluator ε] {b : ε} {h : Handle} {ms : List Handle} (live : Live b h)
    (found : arrayMembers? b h = some ms) : ∀ m ∈ ms, Live b m := by
  cases live with
  | operation op _ =>
    rw [LawfulEvaluator.exclusive op] at found
    cases found
  | group known each =>
    cases known.symm.trans found
    exact each

/-! ## Requests made of values -/

def Request.handles : Request → List Handle
  | operation op => op.operands
  | group _ members => members

def Careful (b : ε) : List Request → Prop
  | [] => True
  | r :: rs => (∀ h ∈ r.handles, Live b h) ∧ Careful (r.send b).1 rs

theorem Careful.append {b : ε} {rs more : List Request} (h : Careful b rs) (h' : Careful (sendAll b rs).1 more) :
    Careful b (rs ++ more) := by
  induction rs generalizing b with
  | nil => exact h'
  | cons r rs ih => exact ⟨h.1, ih h.2 h'⟩

/-- A request is made of values of the back end that it is sent to. -/
theorem Careful.live {b : ε} {front back : List Request} {r : Request} (h : Careful b (front ++ r :: back)) :
    ∀ v ∈ r.handles, Live (sendAll b front).1 v := by
  induction front generalizing b with
  | nil => exact h.1
  | cons q front ih => exact ih h.2

theorem Careful.live_at {b : ε} {rs : List Request} (h : Careful b rs) {i : Nat} {r : Request} (asked : rs[i]? = some r) :
    ∀ v ∈ r.handles, Live (sendAll b (rs.take i)).1 v := by
  obtain ⟨inside, rfl⟩ := List.getElem?_eq_some_iff.1 asked
  have split : rs = rs.take i ++ rs[i] :: rs.drop (i + 1) := by rw [List.getElem_cons_drop, List.take_append_drop]
  rw [split] at h
  exact h.live

/-- `b'` came of `b` by careful requests, for operations of admitted kinds. -/
def Sends (admits : OperationKind → Prop) (b b' : ε) : Prop :=
  ∃ rs, b' = (sendAll b rs).1 ∧ Careful b rs ∧ ∀ o ∈ Request.kinds rs, admits o

variable {admits : OperationKind → Prop} {b b' b'' : ε}

theorem Sends.refl (b : ε) : Sends admits b b := ⟨[], rfl, trivial, fun _ none => by cases none⟩

theorem Sends.trans (h : Sends admits b b') (h' : Sends admits b' b'') : Sends admits b b'' := by
  obtain ⟨rs, rfl, careful, kinds⟩ := h
  obtain ⟨more, rfl, careful', kinds'⟩ := h'
  refine ⟨rs ++ more, by rw [Request.sendAll_append], careful.append careful', ?_⟩
  rw [Request.kinds_append]
  exact List.forall_mem_append.2 ⟨kinds, kinds'⟩

theorem Sends.extends [LawfulEvaluator ε] (h : Sends admits b b') : Extends b b' := by
  obtain ⟨rs, rfl, -⟩ := h
  exact Request.sendAll_extends b rs

/-! ## The discipline -/

/-- What may be recorded while a node of some kind compiles: what its rule records, or a conversion. -/
def Kind.Admits (k : Kind) (o : OperationKind) : Prop := k.Records o ∨ ∃ c : Conversion.Known, o = c.kind

def valued (registry : Registry) (k : Kind) : Custody ε where
  good b := Offers b registry
  leads := Sends k.Admits
  vouches := Live
  admits := k.Admits
  yields o := o ≠ .fragmentColor

theorem valued_lawful [LawfulEvaluator ε] (registry : Registry) (k : Kind) :
    (valued registry k : Custody ε).Lawful where
  refl _ := .refl _
  trans := .trans
  good good leads := good.stays leads.extends
  stays live leads := live.mono leads.extends
  members _ live found := live.members found
  record {b op} _ admitted known :=
    ⟨⟨[.operation op], rfl, ⟨known, trivial⟩, List.forall_mem_singleton.2 admitted⟩,
      .operation (LawfulEvaluator.addOperation_recorded b op)⟩
  group {b ms} name _ known :=
    ⟨⟨[.group name ms], rfl, ⟨known, trivial⟩, List.forall_mem_nil _⟩,
      .group (LawfulEvaluator.addArray_recorded b name ms) fun m member =>
        (known m member).mono (LawfulEvaluator.addArray_extends b name ms)⟩
  conversion {b source target k} good offered v type has := by
    rw [good source target] at offered
    cases known : registry source target with
    | none =>
      rw [known] at offered
      cases offered
    | some c =>
      rw [known] at offered
      cases offered
      exact ⟨.inr ⟨c, rfl⟩, (fun same => by cases c <;> cases same), List.forall_mem_singleton.2 has⟩
  yields _ result := result

/-! ## Leaves -/

/-- The operation of a leaf: it names something outside the graph. -/
def Kind.leaf? : Kind → Option OperationKind
  | property name _ => some (.property name)
  | vertexAttribute name _ => some (.varying name)
  | sampler name => some (.sampler name)
  | _ => none

def OperationKind.IsLeaf : OperationKind → Prop
  | property _ | varying _ | sampler _ => True
  | _ => False

/-- Only leaves record operations of leaves. -/
theorem Kind.Admits.leaf {k : Kind} {o : OperationKind} (h : k.Admits o) (leaf : o.IsLeaf) : k.leaf? = some o := by
  rcases h with records | ⟨c, rfl⟩
  · cases k with
    | provider p => cases p <;> cases records <;> cases leaf
    | _ => cases records <;> first | rfl | cases leaf
  · cases c <;> cases leaf

/-- The operation is that of a leaf among some kinds. Leaves of one operation differ in their types. -/
def OperationKind.LeafOf (kinds : List Kind) : OperationKind → Prop
  | property name => ∃ type, .property name type ∈ kinds
  | varying name => ∃ type, .vertexAttribute name type ∈ kinds
  | sampler name => .sampler name ∈ kinds
  | _ => False

theorem Kind.leaf_iff {kinds : List Kind} {o : OperationKind} : (∃ k ∈ kinds, k.leaf? = some o) ↔ o.LeafOf kinds := by
  constructor
  · intro found
    obtain ⟨k, member, leaf⟩ := found
    cases k with
    | property _ type | vertexAttribute _ type =>
      cases leaf
      exact ⟨type, member⟩
    | sampler =>
      cases leaf
      exact member
    | _ => cases leaf
  · intro listed
    cases o with
    | property | varying =>
      obtain ⟨type, member⟩ := listed
      exact ⟨_, member, rfl⟩
    | sampler => exact ⟨_, listed, rfl⟩
    | _ => exact listed.elim

/-- A leaf's rule needs to know its type only. -/
theorem evaluate_leaf {k : Kind} {o : OperationKind} (leaf : k.leaf? = some o) {c : Context} {type : PinType}
    (outputs : c.outputs[0]? = some type) (b : ε) : ∃ op : Operation, op.kind = o ∧ op.operands = []
      ∧ op.type = type ∧ (k.evaluate c).run b = (.ok [(addOperation b op).2], (addOperation b op).1) := by
  have known : c.outputType 0 = .ok type := by simp [Context.outputType, outputs]
  have named : ∀ name, (Rule.named c o name).run b = (.ok [(addOperation b ((Operation.plain o type []).named name)).2],
      (addOperation b ((Operation.plain o type []).named name)).1) := by
    intro name
    simp only [Rule.named, known]
    rfl
  cases k <;> cases leaf
  all_goals exact ⟨_, rfl, rfl, rfl, named _⟩

/-! ## Passes -/

namespace Graph

variable [LawfulEvaluator ε] {g : Graph} {registry : Registry} {start : ε} {p : Progress ε} {id : NodeId} {n : Node}

omit [LawfulEvaluator ε] in
/-- Leaves compile, at the types of their pins. -/
theorem compileNode_leaf (sound : g.Sound) (sized : Every (fun o => o.shape.Sized) g)
    (hn : g.nodes.get? id = some n) {o : OperationKind} (leaf : n.kind.leaf? = some o) (p : Progress ε) :
    ∃ op : Operation, op.kind = o ∧ op.operands = [] ∧ (g.outputsOf n).map OutputPin.type = [op.type]
      ∧ (g.compileNode id n p).2.backend = (addOperation p.backend op).1
      ∧ (g.compileNode id n p).2.compiled = id :: p.compiled := by
  obtain ⟨-, outputCount⟩ := sized_outline_iff.1 (sized id n hn)
  have one : n.kind.outputSpecs.length = 1 := by
    cases kind : n.kind <;> rw [kind] at leaf <;> cases leaf <;> rfl
  have context := sound.context_eq p.values hn
  obtain ⟨type, types⟩ : ∃ type, (g.outputsOf n).map OutputPin.type = [type] := by
    rw [← List.length_eq_one_iff, List.length_map, sound.outputsOf_length hn, outputCount, one]
  rw [types] at context
  obtain ⟨op, kind, alone, rfl, ran⟩ :=
    evaluate_leaf leaf (c := ⟨id, (g.inputsOf n).map (seen p.values), [type]⟩) rfl p.backend
  have count : [(addOperation p.backend op).2].length = n.outputs.length := (outputCount.trans one).symm
  refine ⟨op, kind, alone, types, ?_⟩
  unfold compileNode
  rw [context]
  dsimp only
  rw [ran]
  dsimp only
  rw [if_pos count]
  exact ⟨rfl, rfl⟩

omit [LawfulEvaluator ε] in
theorem compileNode_compiled (g : Graph) (id : NodeId) (n : Node) (p : Progress ε) :
    (g.compileNode id n p).2.compiled = p.compiled ∨ (g.compileNode id n p).2.compiled = id :: p.compiled := by
  unfold compileNode
  cases g.context p.values id n with
  | error f => exact .inl rfl
  | ok c =>
    dsimp only
    cases (n.kind.evaluate c).run p.backend with
    | mk answer b =>
      cases answer with
      | error stop => exact .inl rfl
      | ok values =>
        dsimp only
        split
        · exact .inr rfl
        · exact .inl rfl

/-- A leaf's operation is asked for just when such a leaf is compiled. -/
def Leaves (g : Graph) (compiled : List NodeId) (rs : List Request) : Prop :=
  ∀ o : OperationKind, o.IsLeaf →
    (o ∈ Request.kinds rs ↔ ∃ id ∈ compiled, ∃ n, g.nodes.get? id = some n ∧ n.kind.leaf? = some o)

omit [Evaluator ε] [LawfulEvaluator ε] in
theorem Leaves.compiled {compiled compiled' : List NodeId} {rs more : List Request} (h : g.Leaves compiled rs)
    (hn : g.nodes.get? id = some n)
    (sends : ∀ o : OperationKind, o.IsLeaf → (o ∈ Request.kinds more ↔ n.kind.leaf? = some o))
    (marks : compiled' = id :: compiled ∨ compiled' = compiled ∧ n.kind.leaf? = none) :
    g.Leaves compiled' (rs ++ more) := by
  intro o leaf
  have marked : (∃ m ∈ compiled', ∃ n, g.nodes.get? m = some n ∧ n.kind.leaf? = some o)
      ↔ (∃ m ∈ compiled, ∃ n, g.nodes.get? m = some n ∧ n.kind.leaf? = some o) ∨ n.kind.leaf? = some o := by
    rcases marks with rfl | ⟨rfl, none⟩
    · simp [hn, or_comm]
    · simp [none]
  rw [marked, Request.kinds_append, List.mem_append, h o leaf, sends o leaf]

/-- What the pass has sent to the back end that it started with. -/
structure Scripted (g : Graph) (registry : Registry) (start : ε) (p : Progress ε) (rs : List Request) : Prop where
  sent : p.backend = (sendAll start rs).1
  careful : Careful start rs
  leaves : g.Leaves p.compiled rs
  offers : Offers p.backend registry
  values : ∀ e ∈ p.values, Live p.backend e.2

theorem Scripted.compileNode (sound : g.Sound) (sized : Every (fun o => o.shape.Sized) g)
    (hn : g.nodes.get? id = some n) {rs : List Request} (h : g.Scripted registry start p rs) :
    ∃ rs, g.Scripted registry start (g.compileNode id n p).2 rs := by
  have orderly : Orderly (valued registry n.kind) p := ⟨h.offers, h.values⟩
  obtain ⟨sends, later, -⟩ : Sends n.kind.Admits p.backend (g.compileNode id n p).2.backend
      ∧ Orderly (valued registry n.kind) (g.compileNode id n p).2 ∧ _ :=
    compileNode_kept (valued_lawful registry n.kind) orderly fun _ records => .inl records
  have more : ∃ more, (g.compileNode id n p).2.backend = (sendAll p.backend more).1 ∧ Careful p.backend more
      ∧ g.Leaves (g.compileNode id n p).2.compiled (rs ++ more) := by
    -- A leaf cannot fail. Whether another node does is no matter, it asks for no leaf's operation.
    cases leaf : n.kind.leaf? with
    | some o =>
      obtain ⟨op, rfl, alone, -, sent, compiled⟩ := compileNode_leaf sound sized hn leaf p
      have careful : Careful p.backend [.operation op] := ⟨by simp [Request.handles, alone], trivial⟩
      refine ⟨[.operation op], sent, careful, h.leaves.compiled hn (fun o _ => ?_) (.inl compiled)⟩
      rw [leaf, Option.some.injEq, eq_comm]
      exact List.mem_singleton
    | none =>
      obtain ⟨more, sent, careful, kinds⟩ := sends
      have marks := (compileNode_compiled g id n p).symm.imp_right fun same => And.intro same leaf
      refine ⟨more, sent, careful, h.leaves.compiled hn (fun o isLeaf => ?_) marks⟩
      exact ⟨fun asked => (kinds o asked).leaf isLeaf, fun own => by cases leaf.symm.trans own⟩
  obtain ⟨more, sent, careful, leaves⟩ := more
  rw [h.sent] at sent careful
  exact ⟨rs ++ more, by rw [sent, Request.sendAll_append], h.careful.append careful, leaves, later.good, later.values⟩

/-- However the pass goes on, there is a script of it. -/
def KeepsScript (g : Graph) (registry : Registry) (start : ε) (p q : Progress ε) : Prop :=
  (∃ rs, g.Scripted registry start p rs) → ∃ rs, g.Scripted registry start q rs

theorem visit_scripted (sound : g.Sound) (sized : Every (fun o => o.shape.Sized) g) (path : List NodeId)
    (id : NodeId) (p : Progress ε) : g.KeepsScript registry start p (g.visit path id p).2 := by
  refine visit_keeps (fun _ h => h) (fun first next h => next (first h)) (fun id n p hn h => ?_) path id p
  obtain ⟨rs, h⟩ := h
  exact h.compileNode sound sized hn

/-! ## Whole passes -/

/-- The kinds of the nodes that an evaluation compiles. -/
def compiledKinds (g : Graph) (b : ε) : List Kind :=
  match g.terminal with
  | none => []
  | some _ => ((g.evaluate b).graph.nodes.values.filter Node.evaluated).map Node.kind

omit [LawfulEvaluator ε] in
theorem mem_compiledKinds {terminal : NodeId} (chosen : g.terminal = some terminal) {b : ε} {k : Kind} :
    k ∈ g.compiledKinds b ↔ ∃ id ∈ (g.visit [] terminal ⟨b, [], [], [.evaluating g.id terminal]⟩).2.compiled,
      ∃ n, g.nodes.get? id = some n ∧ n.kind = k := by
  obtain ⟨graph, -, -⟩ := evaluate_chosen chosen b
  simp only [compiledKinds, chosen, graph, withResults, List.mem_map, List.mem_filter, Table.mem_values_iff,
    Table.get?_mapWithKey_eq_some]
  constructor
  · intro marked
    obtain ⟨n, ⟨⟨id, n', hn, rfl⟩, done⟩, rfl⟩ := marked
    exact ⟨id, of_decide_eq_true done, n', hn, rfl⟩
  · intro compiled
    obtain ⟨id, done, n, hn, rfl⟩ := compiled
    exact ⟨_, ⟨⟨id, n, hn, rfl⟩, decide_eq_true done⟩, rfl⟩

/-- Whatever is sent in an evaluation is made of values, and the operations of leaves among it
are those of the leaves that were compiled. -/
theorem evaluate_careful (sound : g.Sound) (sized : Every (fun o => o.shape.Sized) g) {b : ε}
    (offers : Offers b registry) : ∃ rs, (g.evaluate b).backend = (sendAll b rs).1 ∧ Careful b rs
      ∧ ∀ o : OperationKind, o.IsLeaf → (o ∈ Request.kinds rs ↔ ∃ k ∈ g.compiledKinds b, k.leaf? = some o) := by
  cases chosen : g.terminal with
  | none =>
    rw [evaluate_unchosen chosen]
    exact ⟨[], rfl, trivial, fun o _ => by simp [compiledKinds, chosen, Request.kinds]⟩
  | some terminal =>
    have fresh : g.Scripted registry b ⟨b, [], [], [.evaluating g.id terminal]⟩ [] :=
      ⟨rfl, trivial, fun o _ => (by simp [Request.kinds]), offers, fun _ none => by cases none⟩
    obtain ⟨rs, h⟩ := visit_scripted sound sized [] terminal _ ⟨[], fresh⟩
    obtain ⟨-, backend, -⟩ := evaluate_chosen chosen b
    refine ⟨rs, backend.trans h.sent, h.careful, fun o leaf => (h.leaves o leaf).trans ?_⟩
    constructor
    · intro compiled
      obtain ⟨id, done, n, hn, own⟩ := compiled
      exact ⟨n.kind, (mem_compiledKinds chosen).2 ⟨id, done, n, hn, rfl⟩, own⟩
    · intro compiled
      obtain ⟨k, member, own⟩ := compiled
      obtain ⟨id, done, n, hn, rfl⟩ := (mem_compiledKinds chosen).1 member
      exact ⟨id, done, n, hn, own⟩

end Graph

end FrameGraph
