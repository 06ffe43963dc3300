/-
  FrameGraph.Proofs.Store.Loading: which stored graphs are accepted.

  The loader looks at ids, pin lists, the terminal and links one after another. Taken together
  (`restore_eq_ok_iff`) its checks ask exactly that the graph, with the memories of its inputs
  computed anew, is sound and that every node has as many pins as its kind declares; and that
  graph is what it answers with.
-/

import Mathlib.Data.List.Nodup
import FrameGraph.Graph.Check
import FrameGraph.Proofs.Store.Outlines

namespace FrameGraph.Graph

/-! ## Ids -/

theorem collectIds_eq_ok_iff {stored : List (Nat × Nat)} {seen out : List Nat} :
    collectIds seen stored = .ok out ↔ (∀ e ∈ stored, e.1 = e.2) ∧ (stored.map Prod.fst).Nodup
      ∧ (∀ e ∈ stored, e.1 ∉ seen) ∧ out = (stored.map Prod.fst).reverse ++ seen := by
  induction stored generalizing seen with
  | nil => simp [collectIds, eq_comm]
  | cons e rest ih =>
    obtain ⟨key, id⟩ := e
    unfold collectIds
    by_cases foreign : key = id
    · subst foreign
      by_cases met : key ∈ seen
      · simp [met]
      · simp only [ne_eq, not_true_eq_false, if_false, met, ih, List.mem_cons, not_or, List.map_cons,
          List.nodup_cons, List.mem_map, List.reverse_cons, List.append_assoc, List.cons_append,
          List.nil_append, forall_eq_or_imp, true_and, not_false_eq_true, not_exists, not_and]
        constructor
        · intro holds
          obtain ⟨keys, nodup, apart, out⟩ := holds
          exact ⟨keys, ⟨fun x hx => (apart x hx).1, nodup⟩, fun x hx => (apart x hx).2, out⟩
        · intro holds
          obtain ⟨keys, ⟨new, nodup⟩, apart, out⟩ := holds
          exact ⟨keys, nodup, fun x hx => ⟨new x hx, apart x hx⟩, out⟩
    · simp [foreign]

theorem map_fst_storedIds (g : Graph) : g.storedIds.map Prod.fst = g.ids := by
  simp [storedIds, ids, Table.keys, Function.comp_def]

theorem checkIds_eq_ok_iff {g : Graph} :
    g.checkIds = .ok () ↔ (∀ e ∈ g.storedIds, e.1 = e.2) ∧ g.Numbered := by
  simp only [checkIds, bind_eq_ok_iff, collectIds_eq_ok_iff, map_fst_storedIds, List.append_nil]
  constructor
  · intro passed
    obtain ⟨out, ⟨keys, nodup, -, rfl⟩, below⟩ := passed
    refine ⟨keys, nodup, fun i hi => ?_⟩
    split at below
    · rename_i empty
      rw [List.max?_eq_none_iff, List.reverse_eq_nil_iff] at empty
      rw [empty] at hi
      cases hi
    · rename_i greatest max
      have le := (List.max?_eq_some_iff.1 max).2 i (List.mem_reverse.2 hi)
      split at below
      · cases below
      · omega
  · intro holds
    obtain ⟨keys, nodup, below⟩ := holds
    refine ⟨_, ⟨keys, nodup, by simp, rfl⟩, ?_⟩
    split
    · rfl
    · rename_i greatest max
      have lt := below greatest (List.mem_reverse.1 (List.max?_eq_some_iff.1 max).1)
      rw [if_neg (by omega)]
      rfl

/-! ## Pin lists -/

theorem listPins_eq_ok_iff {node : NodeId} {owns : PinId → Bool} {pins listed out : List PinId} :
    listPins node owns listed pins = .ok out ↔ (∀ pin ∈ pins, owns pin = true) ∧ pins.Nodup
      ∧ (∀ pin ∈ pins, pin ∉ listed) ∧ out = pins.reverse ++ listed := by
  induction pins generalizing listed with
  | nil => exact ⟨fun h => ⟨by simp, .nil, by simp, (Except.ok.inj h).symm⟩, fun h => congrArg _ h.2.2.2.symm⟩
  | cons pin pins ih =>
    unfold listPins
    by_cases fits : owns pin = true ∧ pin ∉ listed
    · have taken : (owns pin && !listed.contains pin) = true := by simpa using fits
      rw [if_pos taken, ih]
      simp only [List.mem_cons, not_or, List.nodup_cons, List.reverse_cons, List.append_assoc,
        List.cons_append, List.nil_append, forall_eq_or_imp, fits, true_and, not_false_eq_true]
      constructor
      · intro passed
        obtain ⟨owned, nodup, apart, out⟩ := passed
        exact ⟨owned, ⟨fun hp => (apart pin hp).1 rfl, nodup⟩, fun p hp => (apart p hp).2, out⟩
      · intro holds
        obtain ⟨owned, ⟨new, nodup⟩, apart, out⟩ := holds
        exact ⟨owned, nodup, fun p hp => ⟨fun eq => new (eq ▸ hp), apart p hp⟩, out⟩
    · have refused : ¬ (owns pin && !listed.contains pin) = true := by simpa using fits
      rw [if_neg refused]
      refine ⟨fun h => (by cases h), ?_⟩
      intro passed
      obtain ⟨owned, -, apart, -⟩ := passed
      exact absurd ⟨owned pin List.mem_cons_self, apart pin List.mem_cons_self⟩ fits

/-- A node lists pins that belong to it, as many as its kind declares. -/
structure ListsOwn (g : Graph) (n : Node) : Prop where
  inputs : ∀ pin ∈ n.inputs, g.ownsInput n.id pin = true
  outputs : ∀ pin ∈ n.outputs, g.ownsOutput n.id pin = true
  inputCount : n.inputs.length = n.kind.inputSpecs.length
  outputCount : n.outputs.length = n.kind.outputSpecs.length

theorem checkPinCount_eq_ok_iff {n : Node} {u : Unit} : checkPinCount n = .ok u ↔
    n.inputs.length = n.kind.inputSpecs.length ∧ n.outputs.length = n.kind.outputSpecs.length := by
  simp only [checkPinCount]
  split <;> simp_all

theorem listNodes_eq_ok_iff {g : Graph} {ns : List Node} {listed out : List PinId} :
    g.listNodes listed ns = .ok out ↔ (∀ n ∈ ns, g.ListsOwn n) ∧ (ns.flatMap Node.pins).Nodup
      ∧ (∀ pin ∈ ns.flatMap Node.pins, pin ∉ listed) ∧ out = (ns.flatMap Node.pins).reverse ++ listed := by
  induction ns generalizing listed with
  | nil => exact ⟨fun h => ⟨by simp, .nil, by simp, (Except.ok.inj h).symm⟩, fun h => congrArg _ h.2.2.2.symm⟩
  | cons n ns ih =>
    simp only [listNodes, bind_eq_ok_iff, listPins_eq_ok_iff, checkPinCount_eq_ok_iff, ih]
    have order : (List.flatMap Node.pins (n :: ns)).reverse ++ listed
        = (ns.flatMap Node.pins).reverse ++ (n.outputs.reverse ++ (n.inputs.reverse ++ listed)) := by
      simp [Node.pins]
    rw [order]
    simp only [List.mem_cons, forall_eq_or_imp, List.flatMap_cons, Node.pins, List.nodup_append,
      List.mem_append]
    constructor
    · intro passed
      obtain ⟨_, ⟨owned, inputs, new, rfl⟩, _, ⟨owned', outputs, new', rfl⟩, _, count, rest, nodup, apart, rfl⟩ := passed
      simp only [List.mem_append, List.mem_reverse, not_or] at new' apart
      refine ⟨⟨⟨owned, owned', count.1, count.2⟩, rest⟩, ⟨⟨inputs, outputs, ?_⟩, nodup, ?_⟩, ?_, rfl⟩
      · intro a ha b hb same
        subst same
        exact (new' a hb).1 ha
      · intro a ha b hb same
        subst same
        rcases ha with ha | ha
        · exact (apart a hb).2.1 ha
        · exact (apart a hb).1 ha
      · intro pin hp
        rcases hp with (hp | hp) | hp
        · exact new pin hp
        · exact (new' pin hp).2
        · exact (apart pin hp).2.2
    · intro holds
      obtain ⟨⟨own, rest⟩, ⟨⟨inputs, outputs, cross⟩, nodup, apart⟩, new, rfl⟩ := holds
      refine ⟨_, ⟨own.inputs, inputs, fun pin hp => new pin (.inl (.inl hp)), rfl⟩, _,
        ⟨own.outputs, outputs, ?_, rfl⟩, (), ⟨own.inputCount, own.outputCount⟩, rest, nodup, ?_, rfl⟩
      · intro pin hp
        simp only [List.mem_append, List.mem_reverse, not_or]
        exact ⟨fun h => cross pin h pin hp rfl, new pin (.inl (.inr hp))⟩
      · intro pin hp
        simp only [List.mem_append, List.mem_reverse, not_or]
        exact ⟨fun h => apart pin (.inr h) pin hp rfl, fun h => apart pin (.inl h) pin hp rfl, new pin (.inr hp)⟩

theorem checkPins_eq_ok_iff {g : Graph} :
    g.checkPins = .ok () ↔ (∀ n ∈ g.nodes.values, g.ListsOwn n) ∧ (g.nodes.values.flatMap Node.pins).Nodup
      ∧ ∀ pin ∈ g.inputPins.keys ++ g.outputPins.keys, ∃ n ∈ g.nodes.values, pin ∈ n.pins := by
  simp only [checkPins, bind_eq_ok_iff, listNodes_eq_ok_iff, List.append_nil]
  constructor
  · intro passed
    obtain ⟨_, ⟨own, nodup, -, rfl⟩, every⟩ := passed
    refine ⟨own, nodup, fun pin hp => ?_⟩
    split at every
    · cases every
    · rename_i found
      simpa using List.find?_eq_none.1 found pin hp
  · intro holds
    obtain ⟨own, nodup, covered⟩ := holds
    refine ⟨_, ⟨own, nodup, by simp, rfl⟩, ?_⟩
    split
    · rename_i pin found
      obtain ⟨n, hn, hp⟩ := covered pin (List.mem_of_find?_eq_some found)
      have missing := List.find?_some found
      simp only [Bool.not_eq_true', List.contains_eq_mem, List.mem_reverse, List.mem_flatMap,
        decide_eq_false_iff_not] at missing
      exact absurd ⟨n, hn, hp⟩ missing
    · rfl

theorem checkTerminal_eq_ok_iff {g : Graph} :
    g.checkTerminal = .ok () ↔ ∀ t, g.terminal = some t → ∃ n, g.nodes.get? t = some n := by
  unfold checkTerminal
  split
  · rename_i h
    simp [h]
  · rename_i id h
    simp only [h, Option.some.injEq, forall_eq', ← Table.mem_keys_iff]
    split <;> rename_i known <;> simpa using known

/-! ## Links -/

/-- A link joins registered pins whose types match. -/
def Joins (g : Graph) (l : Link) : Prop :=
  ∃ o i, g.outputPins.get? l.output = some o ∧ g.inputPins.get? l.input = some i
    ∧ o.type.compatible i.type = true

/-- The inputs, once some links are entered. -/
def wiredBy (g : Graph) (links : List Link) : Table PinId InputPin :=
  g.inputPins.mapWithKey fun k p =>
    { p with connection := (links.find? fun l => l.input == k).map Link.output }

theorem joins_iff {g : Graph} {l : Link} {o : OutputPin} {i : InputPin} (ho : g.outputPins.get? l.output = some o)
    (hi : g.inputPins.get? l.input = some i) : g.Joins l ↔ o.type.compatible i.type = true := by
  constructor
  · intro joined
    obtain ⟨o', i', ho', hi', fits⟩ := joined
    rw [ho] at ho'
    rw [hi] at hi'
    cases ho'
    cases hi'
    exact fits
  · exact fun fits => ⟨o, i, ho, hi, fits⟩

/-- The first link into an input is the one that is entered. -/
theorem wiredBy_enter {g : Graph} {done : List Link} {l : Link} (free : ∀ d ∈ done, d.input ≠ l.input) :
    (g.wiredBy done).modify l.input (fun p => { p with connection := some l.output }) = g.wiredBy (done ++ [l]) := by
  have untaken : done.find? (fun d => d.input == l.input) = none := by simpa using free
  rw [wiredBy, Table.modify, Table.mapWithKey_mapWithKey]
  refine Table.mapWithKey_congr fun k p _ => ?_
  rw [List.find?_append]
  by_cases here : k = l.input
  · subst here
    simp [untaken]
  · have away : (l.input == k) = false := by simpa using Ne.symm here
    simp [here, away]

theorem attach_eq_ok_iff {g : Graph} {done : List Link} {l : Link} {t : Table PinId InputPin} :
    g.attach (g.wiredBy done) l = .ok t
      ↔ g.Joins l ∧ (∀ d ∈ done, d.input ≠ l.input) ∧ t = g.wiredBy (done ++ [l]) := by
  unfold attach
  cases ho : g.outputPins.get? l.output with
  | none =>
    refine ⟨fun h => (by cases h), ?_⟩
    intro joins
    obtain ⟨⟨_, _, ho', _⟩, _⟩ := joins
    simp [ho] at ho'
  | some o =>
    cases hi : g.inputPins.get? l.input with
    | none =>
      have absent : (g.wiredBy done).get? l.input = none := by simp [wiredBy, hi]
      rw [absent]
      refine ⟨fun h => (by cases h), ?_⟩
      intro joins
      obtain ⟨⟨_, _, _, hi', _⟩, _⟩ := joins
      simp [hi] at hi'
    | some i =>
      have present : (g.wiredBy done).get? l.input
          = some { i with connection := (done.find? fun d => d.input == l.input).map Link.output } := by
        simp [wiredBy, hi]
      rw [present, joins_iff ho hi]
      cases fits : o.type.compatible i.type with
      | false =>
        simp only [fits, Bool.not_false, if_true]
        exact ⟨fun h => (by cases h), fun h => (by cases h.1)⟩
      | true =>
        simp only [fits, Bool.not_true, Bool.false_eq_true, if_false]
        cases taken : done.find? fun d => d.input == l.input with
        | some d =>
          have enters := List.find?_some taken
          simp only [Option.map_some, Option.isSome_some, if_true]
          exact ⟨fun h => (by cases h), fun h =>
            absurd (eq_of_beq enters) (h.2.1 d (List.mem_of_find?_eq_some taken))⟩
        | none =>
          have free : ∀ d ∈ done, d.input ≠ l.input := by simpa using taken
          simp only [Option.map_none, Option.isSome_none, Bool.false_eq_true, if_false, wiredBy_enter free]
          exact ⟨fun h => ⟨trivial, free, (Except.ok.inj h).symm⟩, fun h => congrArg _ h.2.2.symm⟩

theorem attached_eq_ok_iff {g : Graph} {links done : List Link} {t : Table PinId InputPin} :
    links.foldlM g.attach (g.wiredBy done) = .ok t ↔ (∀ l ∈ links, g.Joins l)
      ∧ (links.map Link.input).Nodup ∧ (∀ l ∈ links, ∀ d ∈ done, d.input ≠ l.input)
      ∧ t = g.wiredBy (done ++ links) := by
  induction links generalizing done with
  | nil =>
    rw [List.append_nil]
    exact ⟨fun h => ⟨by simp, .nil, by simp, (Except.ok.inj h).symm⟩, fun h => congrArg _ h.2.2.2.symm⟩
  | cons l links ih =>
    rw [List.foldlM_cons, bind_eq_ok_iff]
    simp only [attach_eq_ok_iff]
    constructor
    · intro passed
      obtain ⟨_, ⟨joins, free, rfl⟩, rest⟩ := passed
      obtain ⟨joined, distinct, apart, rfl⟩ := ih.1 rest
      refine ⟨List.forall_mem_cons.2 ⟨joins, joined⟩, List.nodup_cons.2 ⟨?_, distinct⟩,
        List.forall_mem_cons.2 ⟨free, fun l' hl' d hd => apart l' hl' d (List.mem_append_left _ hd)⟩, ?_⟩
      · intro again
        obtain ⟨l', hl', same⟩ := List.mem_map.1 again
        exact apart l' hl' l (List.mem_append_right _ List.mem_cons_self) same.symm
      · rw [List.append_assoc]
        rfl
    · intro holds
      obtain ⟨joined, distinct, apart, rfl⟩ := holds
      obtain ⟨joins, joined⟩ := List.forall_mem_cons.1 joined
      obtain ⟨new, distinct⟩ := List.nodup_cons.1 distinct
      obtain ⟨free, apart⟩ := List.forall_mem_cons.1 apart
      refine ⟨_, ⟨joins, free, rfl⟩, ih.2 ⟨joined, distinct, fun l' hl' d hd => ?_, ?_⟩⟩
      · rcases List.mem_append.1 hd with hd | hd
        · exact apart l' hl' d hd
        · rw [List.mem_singleton.1 hd]
          exact fun same => new (List.mem_map.2 ⟨l', hl', same.symm⟩)
      · rw [List.append_assoc]
        rfl

/-! ## All checks together -/

theorem restore_checks {g r : Graph} : g.restore = .ok r ↔ g.checkIds = .ok () ∧ g.checkPins = .ok ()
    ∧ g.checkTerminal = .ok () ∧ (∀ l ∈ g.links.values, g.Joins l)
    ∧ (g.links.values.map Link.input).Nodup ∧ r = g.rewired := by
  have start : forgetConnections g.inputPins = g.wiredBy [] := rfl
  simp only [restore, bind_eq_ok_iff, start, attached_eq_ok_iff]
  constructor
  · intro passed
    obtain ⟨_, ids, _, pins, _, terminal, _, ⟨joined, distinct, -, rfl⟩, ⟨⟩⟩ := passed
    exact ⟨ids, pins, terminal, joined, distinct, rfl⟩
  · intro holds
    obtain ⟨ids, pins, terminal, joined, distinct, rfl⟩ := holds
    exact ⟨(), ids, (), pins, (), terminal, _, ⟨joined, distinct, by simp, rfl⟩, rfl⟩

/-- What the checks on ids say about each table. -/
theorem storedIds_agree_iff {g : Graph} : (∀ e ∈ g.storedIds, e.1 = e.2) ↔
    (∀ k n, g.nodes.get? k = some n → n.id = k) ∧ (∀ k p, g.inputPins.get? k = some p → p.id = k)
      ∧ (∀ k p, g.outputPins.get? k = some p → p.id = k) ∧ ∀ k l, g.links.get? k = some l → l.id = k := by
  have same_node : ∀ a b : NodeId, a.val = b.val ↔ b = a := fun a b => by
    rw [eq_comm, ← NodeId.mk.injEq]
  have same_pin : ∀ a b : PinId, a.val = b.val ↔ b = a := fun a b => by
    rw [eq_comm, ← PinId.mk.injEq]
  have same_link : ∀ a b : LinkId, a.val = b.val ↔ b = a := fun a b => by
    rw [eq_comm, ← LinkId.mk.injEq]
  simp only [storedIds, List.mem_append, List.mem_map, Table.get?_eq_some_iff]
  constructor
  · intro h
    refine ⟨fun k n hn => ?_, fun k p hp => ?_, fun k p hp => ?_, fun k l hl => ?_⟩
    · exact (same_node _ _).1 (h _ (.inl (.inl (.inl ⟨_, hn, rfl⟩))))
    · exact (same_pin _ _).1 (h _ (.inl (.inl (.inr ⟨_, hp, rfl⟩))))
    · exact (same_pin _ _).1 (h _ (.inl (.inr ⟨_, hp, rfl⟩)))
    · exact (same_link _ _).1 (h _ (.inr ⟨_, hl, rfl⟩))
  · intro apart _ member
    obtain ⟨nodes, inputs, outputs, links⟩ := apart
    rcases member with ((⟨e, he, rfl⟩ | ⟨e, he, rfl⟩) | ⟨e, he, rfl⟩) | ⟨e, he, rfl⟩
    · exact (same_node _ _).2 (nodes _ _ he)
    · exact (same_pin _ _).2 (inputs _ _ he)
    · exact (same_pin _ _).2 (outputs _ _ he)
    · exact (same_link _ _).2 (links _ _ he)

/-- No number is both an input's and an output's. -/
theorem Numbered.apart {g : Graph} (h : g.Numbered) {pin : PinId} (input : pin ∈ g.inputPins.keys)
    (output : pin ∈ g.outputPins.keys) : False := by
  have distinct := h.distinct
  simp only [ids, List.append_assoc] at distinct
  have pins := (List.nodup_append.1 distinct).2.1
  exact (List.nodup_append.1 pins).2.2 pin.val (List.mem_map.2 ⟨pin, input, rfl⟩) pin.val
    (List.mem_append_left _ (List.mem_map.2 ⟨pin, output, rfl⟩)) rfl

theorem ownsInput_iff {g : Graph} {node : NodeId} {pin : PinId} :
    g.ownsInput node pin = true ↔ ∃ p, g.inputPins.get? pin = some p ∧ p.node = node := by
  simp [ownsInput, Option.any_eq_true]

theorem ownsOutput_iff {g : Graph} {node : NodeId} {pin : PinId} :
    g.ownsOutput node pin = true ↔ ∃ p, g.outputPins.get? pin = some p ∧ p.node = node := by
  simp [ownsOutput, Option.any_eq_true]

theorem sized_outline_iff {g : Graph} {n : Node} : (g.outline n).shape.Sized ↔
    n.inputs.length = n.kind.inputSpecs.length ∧ n.outputs.length = n.kind.outputSpecs.length := by
  refine ⟨fun h => ⟨?_, ?_⟩, fun h => ⟨?_, ?_⟩⟩
  · simpa [outline, Outline.shape] using h.inputs
  · simpa [outline, Outline.shape] using h.outputs
  · simpa [outline, Outline.shape] using h.1
  · simpa [outline, Outline.shape] using h.2

/-- Nodes list their own pins, all of them, and each one once. -/
structure ListsAll (g : Graph) : Prop where
  own : ∀ n ∈ g.nodes.values, g.ListsOwn n
  once : (g.nodes.values.flatMap Node.pins).Nodup
  covered : ∀ pin ∈ g.inputPins.keys ++ g.outputPins.keys, ∃ n ∈ g.nodes.values, pin ∈ n.pins

/-- The facts about pins that the loader checks are those that a sound graph has. -/
theorem ListsAll.listed {g : Graph} (numbered : g.Numbered) (ids : ∀ e ∈ g.storedIds, e.1 = e.2)
    (h : g.ListsAll) (terminal : ∀ t, g.terminal = some t → ∃ n, g.nodes.get? t = some n) : g.Listed := by
  obtain ⟨nodeKey, inputKey, outputKey, -⟩ := storedIds_agree_iff.1 ids
  have own : ∀ k n, g.nodes.get? k = some n → g.ListsOwn n := fun k n hn =>
    h.own n (Table.mem_values_iff.2 ⟨k, hn⟩)
  have input_listed : ∀ k n, g.nodes.get? k = some n → ∀ pin ∈ n.inputs,
      ∃ p, g.inputPins.get? pin = some p ∧ p.node = k := fun k n hn pin hp =>
    nodeKey k n hn ▸ ownsInput_iff.1 ((own k n hn).inputs pin hp)
  have output_listed : ∀ k n, g.nodes.get? k = some n → ∀ pin ∈ n.outputs,
      ∃ p, g.outputPins.get? pin = some p ∧ p.node = k := fun k n hn pin hp =>
    nodeKey k n hn ▸ ownsOutput_iff.1 ((own k n hn).outputs pin hp)
  refine ⟨nodeKey, inputKey, outputKey, ?_, ?_, ?_, input_listed, output_listed, terminal⟩
  · exact fun k n hn => (List.nodup_flatMap.1 h.once).1 n (Table.mem_values_iff.2 ⟨k, hn⟩)
  · intro k p hp
    have input := Table.mem_keys_of_get? hp
    obtain ⟨n, hn, listed⟩ := h.covered k (List.mem_append_left _ input)
    obtain ⟨owner, hn⟩ := Table.mem_values_iff.1 hn
    rcases List.mem_append.1 listed with listed | listed
    · obtain ⟨p', hp', rfl⟩ := input_listed owner n hn k listed
      cases hp.symm.trans hp'
      exact ⟨n, hn, listed⟩
    · obtain ⟨p', hp', -⟩ := output_listed owner n hn k listed
      exact (numbered.apart input (Table.mem_keys_of_get? hp')).elim
  · intro k p hp
    have output := Table.mem_keys_of_get? hp
    obtain ⟨n, hn, listed⟩ := h.covered k (List.mem_append_right _ output)
    obtain ⟨owner, hn⟩ := Table.mem_values_iff.1 hn
    rcases List.mem_append.1 listed with listed | listed
    · obtain ⟨p', hp', -⟩ := input_listed owner n hn k listed
      exact (numbered.apart (Table.mem_keys_of_get? hp') output).elim
    · obtain ⟨p', hp', rfl⟩ := output_listed owner n hn k listed
      cases hp.symm.trans hp'
      exact ⟨n, hn, listed⟩

theorem Listed.listsAll {g : Graph} (numbered : g.Numbered) (h : g.Listed)
    (sized : Every (fun o => o.shape.Sized) g) : g.ListsAll where
  own n hn := by
    obtain ⟨k, hn⟩ := Table.mem_values_iff.1 hn
    obtain ⟨inputs, outputs⟩ := sized_outline_iff.1 (sized k n hn)
    rw [← h.nodeKey k n hn] at hn
    exact ⟨fun pin hp => ownsInput_iff.2 (h.inputListed _ n hn pin hp),
      fun pin hp => ownsOutput_iff.2 (h.outputListed _ n hn pin hp), inputs, outputs⟩
  once := by
    rw [List.nodup_flatMap]
    constructor
    · intro n hn
      obtain ⟨k, hn⟩ := Table.mem_values_iff.1 hn
      exact h.once k n hn
    · rw [Table.values, List.pairwise_map]
      refine (List.pairwise_map.1 g.nodes.nodup).imp_of_mem fun {a b} ha hb ne => ?_
      -- a pin in two lists would name two owners, or be an input and an output
      have ha := Table.get?_of_mem ha
      have hb := Table.get?_of_mem hb
      intro pin left right
      rcases List.mem_append.1 left with left | left
      · rcases List.mem_append.1 right with right | right
        · exact ne (h.input_unique ha hb left right)
        · obtain ⟨p, hp, -⟩ := h.inputListed _ _ ha pin left
          obtain ⟨p', hp', -⟩ := h.outputListed _ _ hb pin right
          exact numbered.apart (Table.mem_keys_of_get? hp) (Table.mem_keys_of_get? hp')
      · rcases List.mem_append.1 right with right | right
        · obtain ⟨p, hp, -⟩ := h.outputListed _ _ ha pin left
          obtain ⟨p', hp', -⟩ := h.inputListed _ _ hb pin right
          exact numbered.apart (Table.mem_keys_of_get? hp') (Table.mem_keys_of_get? hp)
        · exact ne (h.output_unique ha hb left right)
  covered pin hpin := by
    rcases List.mem_append.1 hpin with hpin | hpin
    · obtain ⟨p, hp⟩ := Table.mem_keys_iff.1 hpin
      obtain ⟨n, hn, listed⟩ := h.inputOwner pin p hp
      exact ⟨n, Table.mem_values_iff.2 ⟨_, hn⟩, List.mem_append_left _ listed⟩
    · obtain ⟨p, hp⟩ := Table.mem_keys_iff.1 hpin
      obtain ⟨n, hn, listed⟩ := h.outputOwner pin p hp
      exact ⟨n, Table.mem_values_iff.2 ⟨_, hn⟩, List.mem_append_right _ listed⟩

theorem single_iff {links : Table LinkId Link} (key : ∀ k l, links.get? k = some l → l.id = k) :
    (links.values.map Link.input).Nodup ↔ Single links := by
  constructor
  · intro distinct k l k' l' hl hl' same
    have equal := List.inj_on_of_nodup_map distinct (Table.mem_values_iff.2 ⟨k, hl⟩)
      (Table.mem_values_iff.2 ⟨k', hl'⟩) same
    rw [← key k l hl, equal, key k' l' hl']
  · intro single
    rw [Table.values, List.map_map]
    refine List.pairwise_map.2 ((List.pairwise_map.1 links.nodup).imp_of_mem fun {a b} ha hb ne same => ?_)
    exact ne (single _ _ _ _ (Table.get?_of_mem ha) (Table.get?_of_mem hb) same)

/-- A graph is loaded if and only if it is sound, with memories computed from the links, and
has the pins that its kinds declare. -/
theorem restore_eq_ok_iff {g r : Graph} :
    g.restore = .ok r ↔ (g.rewired.Sound ∧ Every (fun o => o.shape.Sized) g.rewired) ∧ r = g.rewired := by
  rw [restore_checks, checkIds_eq_ok_iff, checkPins_eq_ok_iff, checkTerminal_eq_ok_iff]
  constructor
  · intro holds
    obtain ⟨⟨ids, numbered⟩, ⟨own, once, covered⟩, terminal, joined, distinct, rfl⟩ := holds
    obtain ⟨-, -, -, linkKey⟩ := storedIds_agree_iff.1 ids
    have listed := ListsAll.listed numbered ids ⟨own, once, covered⟩ terminal
    have joins : ∀ k l, g.links.get? k = some l → g.Joins l := fun k l hl =>
      joined l (Table.mem_values_iff.2 ⟨k, hl⟩)
    have linked : g.rewired.Linked := by
      refine linked_rewired linkKey (fun k l hl => ?_) ((single_iff linkKey).1 distinct)
      obtain ⟨o, i, ho, hi, -⟩ := joins k l hl
      exact ⟨⟨o, ho⟩, i, hi⟩
    have typed : g.Typed := by
      intro k l o i hl ho hi
      obtain ⟨o', i', ho', hi', fits⟩ := joins k l hl
      cases ho.symm.trans ho'
      cases hi.symm.trans hi'
      exact compatible_iff.1 fits
    refine ⟨⟨{ numbered.rewired, listed.rewired, linked with typed := typed.rewired }, ?_⟩, rfl⟩
    refine Every.rewired fun k n hn => sized_outline_iff.2 ?_
    have counts := own n (Table.mem_values_iff.2 ⟨k, hn⟩)
    exact ⟨counts.inputCount, counts.outputCount⟩
  · intro holds
    obtain ⟨⟨sound, sized⟩, rfl⟩ := holds
    have numbered : g.Numbered :=
      ⟨ids_rewired g ▸ sound.distinct, fun i hi => sound.below i (ids_rewired g ▸ hi)⟩
    have stored : ∀ {k p}, g.inputPins.get? k = some p → ∃ q, g.rewired.inputPins.get? k = some q
        ∧ q.id = p.id ∧ q.node = p.node ∧ q.type = p.type :=
      fun hp => ⟨_, rewired_inputPins_get?.2 ⟨_, hp, rfl⟩, rfl, rfl, rfl⟩
    have listed : g.Listed := by
      refine ⟨sound.nodeKey, ?_, sound.outputKey, sound.once, ?_, sound.outputOwner, ?_, sound.outputListed,
        sound.terminalKnown⟩
      · intro k p hp
        obtain ⟨q, hq, id, -⟩ := stored hp
        exact id ▸ sound.inputKey k q hq
      · intro k p hp
        obtain ⟨q, hq, -, owner, -⟩ := stored hp
        exact owner ▸ sound.inputOwner k q hq
      · intro k n hn pin hpin
        obtain ⟨q, hq, owner⟩ := sound.inputListed k n hn pin hpin
        obtain ⟨p, hp, rfl⟩ := rewired_inputPins_get?.1 hq
        exact ⟨p, hp, owner⟩
    have sized' : Every (fun o => o.shape.Sized) g := fun k n hn => outline_rewired g n ▸ sized k n hn
    have all := listed.listsAll numbered sized'
    refine ⟨⟨storedIds_agree_iff.2 ⟨listed.nodeKey, listed.inputKey, listed.outputKey, sound.linkKey⟩, numbered⟩,
      ⟨all.own, all.once, all.covered⟩, listed.terminalKnown, ?_, (single_iff sound.linkKey).2 sound.single, rfl⟩
    intro l hl
    obtain ⟨k, hl⟩ := Table.mem_values_iff.1 hl
    obtain ⟨⟨o, ho⟩, q, hq⟩ := sound.ends k l hl
    obtain ⟨i, hi, rfl⟩ := rewired_inputPins_get?.1 hq
    have typed := sound.typed k l o _ hl ho hq
    exact ⟨o, i, ho, hi, compatible_iff.2 typed⟩

end FrameGraph.Graph
