/-
  FrameGraph.Proofs.Compile.Contracts: what a step against a back end promises.

  A step meets a contract from a back end if it answers as promised or stops with a mistake of
  the user, and never with a fault (`Meets`). Contracts are put in sequence, each step starting
  from the back end that the one before has left. A first use: a rule that sees as many pins as
  its kind declares gives one value for each output (`evaluate_counts`). Hence no evaluation of
  a loaded graph runs into a fault, whatever conversions its back end offers
  (`evaluate_answers`).
-/

import FrameGraph.Proofs.Compile.Faithful

namespace FrameGraph

open Evaluator (addOperation addArray operation? arrayMembers? conversion?)

variable {ε α β : Type}

/-! ## Contracts -/

/-- A step has answered as promised, or stopped with a mistake of the user. -/
inductive Ends (promise : α → ε → Prop) : Except Stop α × ε → Prop
  | answered {a : α} {b : ε} (kept : promise a b) : Ends promise (.ok a, b)
  | mistaken (e : CompileError) (b : ε) : Ends promise (.error (.error e), b)

def Meets (b : ε) (x : Build ε α) (promise : α → ε → Prop) : Prop := Ends promise (x.run b)

namespace Meets

variable {b : ε} {promise : α → ε → Prop} {wanted : β → ε → Prop} {f : α → Build ε β}

theorem pure {a : α} (kept : promise a b) : Meets b (pure a : Build ε α) promise :=
  .answered kept

theorem fail (e : CompileError) : Meets b (Build.fail e : Build ε α) promise :=
  .mistaken e b

theorem bind {x : Build ε α} (first : Meets b x promise) (next : ∀ a b', promise a b' → Meets b' (f a) wanted) :
    Meets b (x >>= f) wanted := by
  unfold Meets at *
  rw [run_bind]
  generalize x.run b = out at first
  cases first with
  | answered kept => exact next _ _ kept
  | mistaken e b' => exact .mistaken e b'

theorem imp {x : Build ε α} {promise' : α → ε → Prop} (h : Meets b x promise)
    (weaker : ∀ a b', promise a b' → promise' a b') : Meets b x promise' := by
  unfold Meets at *
  generalize x.run b = out at h
  cases h with
  | answered kept => exact .answered (weaker _ _ kept)
  | mistaken e b' => exact .mistaken e b'

/-! ## Single steps -/

theorem known {x : Except Stop α} {a : α} (h : x = .ok a) (next : Meets b (f a) wanted) :
    Meets b (Rule.lift x >>= f) wanted := by
  subst h
  exact next

theorem demand {c : Context} {s : InputSlot} {f : Handle → Build ε β}
    (next : ∀ v, s.value = some v → Meets b (f v) wanted) : Meets b (Rule.lift (c.demand s) >>= f) wanted := by
  unfold Context.demand
  cases value : s.value with
  | none => exact .mistaken _ b
  | some v => exact next v value

theorem demandAll {c : Context} {slots : List InputSlot} {f : List Handle → Build ε β}
    (next : ∀ vs, slots.map InputSlot.value = vs.map some → Meets b (f vs) wanted) :
    Meets b (Rule.lift (slots.mapM c.demand) >>= f) wanted := by
  induction slots generalizing f with
  | nil => exact next [] rfl
  | cons s slots ih =>
    have first : ∀ v, s.value = some v →
        Meets b (Rule.lift (slots.mapM c.demand) >>= fun vs => f (v :: vs)) wanted := by
      intro v value
      refine ih fun vs values => next (v :: vs) ?_
      rw [List.map_cons, List.map_cons, value, values]
    -- No demand reaches the back end, so all of them can be lifted at once.
    rw [List.mapM_cons]
    cases value : s.value with
    | none =>
      simp only [Context.demand, value]
      exact .mistaken _ b
    | some v =>
      have later := first v value
      simp only [Context.demand, value]
      cases rest : slots.mapM c.demand with
      | error stop =>
        rw [rest] at later
        exact later
      | ok vs =>
        rw [rest] at later
        exact later

section Requests

variable [Evaluator ε]

theorem record {op : Operation} {promise : Handle → ε → Prop}
    (kept : promise (addOperation b op).2 (addOperation b op).1) : Meets b (Build.record op) promise :=
  .answered kept

theorem group {name : String} {members : List Handle} {promise : Handle → ε → Prop}
    (kept : promise (addArray b name members).2 (addArray b name members).1) :
    Meets b (Build.group name members) promise :=
  .answered kept

theorem operation {value : Handle} {f : Option Operation → Build ε β}
    (next : Meets b (f (operation? b value)) wanted) :
    Meets b (Build.operation? value >>= f) wanted :=
  next

theorem members {value : Handle} {f : Option (List Handle) → Build ε β}
    (next : Meets b (f (arrayMembers? b value)) wanted) : Meets b (Build.members? value >>= f) wanted :=
  next

theorem spread {value : Handle} {f : List Handle → Build ε β}
    (next : Meets b (f ((arrayMembers? b value).getD [value])) wanted) :
    Meets b (Rule.spread value >>= f) wanted :=
  next

theorem conversion {source target : String} {f : Option Conversion → Build ε β}
    (next : Meets b (f (conversion? b source target)) wanted) :
    Meets b (Build.conversion? source target >>= f) wanted :=
  next

end Requests

/-- Steps for the elements of a list, each of which leads on from where the one before has
ended. -/
theorem mapM {f : α → Build ε β} (leads : ε → ε → Prop) (promise : β → ε → Prop) (refl : ∀ b, leads b b)
    (trans : ∀ {b c d}, leads b c → leads c d → leads b d)
    (stays : ∀ {y b c}, leads b c → promise y b → promise y c) {as : List α}
    (each : ∀ a ∈ as, ∀ c, leads b c → Meets c (f a) fun y d => leads c d ∧ promise y d) :
    Meets b (as.mapM f) fun ys c => leads b c ∧ ∀ y ∈ ys, promise y c := by
  induction as generalizing b with
  | nil => exact .pure ⟨refl b, fun _ none => by cases none⟩
  | cons a as ih =>
    rw [List.mapM_cons]
    refine (each a List.mem_cons_self b (refl b)).bind fun y c first => ?_
    obtain ⟨grown, kept⟩ := first
    have rest := ih (b := c) fun a' member d further =>
      each a' (List.mem_cons_of_mem _ member) d (trans grown further)
    refine rest.bind fun ys d others => .pure ?_
    obtain ⟨further, all⟩ := others
    refine ⟨trans grown further, fun z member => ?_⟩
    rcases List.mem_cons.1 member with rfl | member
    · exact stays further kept
    · exact all z member

end Meets

/-! ## One value for each output -/

/-- The step gives so many values. -/
abbrev Gives (b : ε) (count : Nat) (x : Build ε (List Handle)) : Prop :=
  Meets b x fun values _ => values.length = count

section Counting

variable [Evaluator ε] {b : ε} {node : NodeId} {s : InputSlot} {type : PinType}

omit [Evaluator ε] in
theorem gives_alone {x : Build ε Handle} (h : Meets b x fun _ _ => True) : Gives b 1 (do return [← x]) :=
  h.bind fun _ _ _ => .pure rfl

theorem single_gives (op : Operation) : Gives b 1 (Rule.single op) :=
  gives_alone (.record trivial)

omit [Evaluator ε] in
/-- A list of steps that end well ends well. -/
theorem mapM_ends {f : α → Build ε Handle} (each : ∀ a (c : ε), Meets c (f a) fun _ _ => True) (as : List α) :
    Meets b (as.mapM f) fun _ _ => True := by
  have all : Meets b (as.mapM f) fun ys c => True ∧ ∀ y ∈ ys, True :=
    .mapM (fun _ _ => True) (fun _ _ => True) (fun _ => trivial) (fun _ _ => trivial) (fun _ _ => trivial)
      fun a _ c _ => (each a c).imp fun _ _ _ => ⟨trivial, trivial⟩
  exact all.imp fun _ _ _ => trivial

theorem convert_gives : Gives b 1 (Rule.convert ⟨node, [s], [type]⟩) := by
  refine .known rfl (.known rfl (.demand fun value _ => .conversion ?_))
  cases conversion? b s.type.base type.base with
  | none => exact .fail _
  | some conversion =>
    have whole : Gives b 1
        (Rule.single ((conversion.operation value type).named (Rule.convertName s.type type))) :=
      single_gives _
    dsimp only
    cases s.type.isArray with
    | false => exact whole
    | true =>
      refine .members ?_
      cases arrayMembers? b value with
      | none => exact whole
      | some members =>
        exact (mapM_ends (fun m c => .record trivial) members).bind fun _ _ _ => gives_alone (.group trivial)

theorem group_gives (c : Context) (name : String) : Gives b 1 (Rule.group c name) :=
  .demandAll fun _ _ => gives_alone (.group trivial)

theorem select_gives (index : Nat) : Gives b 1 (Rule.select ⟨node, [s], [type]⟩ index) := by
  refine .demand (c := ⟨node, [s], [type]⟩) (s := s) fun value _ => .members ?_
  cases arrayMembers? b value with
  | none => exact .operation (.known rfl (single_gives _))
  | some members =>
    dsimp only
    cases members[index]? with
    | none => exact .fail _
    | some item => exact .pure rfl

theorem renderOne_ends {c : Context} (h : c.outputType 0 = .ok type) (entities eye target : Handle) :
    Meets b (Rule.renderOne c entities eye target) fun _ _ => True :=
  .operation (.known h (.record trivial))

theorem render_gives (isArray : Bool) (s₀ s₁ s₂ s₃ : InputSlot) :
    Gives b 1 (Rule.render ⟨node, [s₀, s₁, s₂, s₃], [type]⟩ isArray) := by
  let c : Context := ⟨node, [s₀, s₁, s₂, s₃], [type]⟩
  refine .demand (c := c) (s := s₀) fun entities _ => .demand (c := c) (s := s₁) fun eye _ => ?_
  refine .demand (c := c) (s := s₂) fun target _ => ?_
  cases isArray with
  | false => exact gives_alone (renderOne_ends (c := c) rfl entities eye target)
  | true =>
    refine .spread (.spread ?_)
    split
    · exact .fail _
    · have each : ∀ (e : Handle × Handle) (b : ε), Meets b (Rule.renderOne c entities e.1 e.2) fun _ _ => True :=
        fun e _ => renderOne_ends rfl entities e.1 e.2
      exact (mapM_ends each _).bind fun _ _ _ => gives_alone (.group trivial)

theorem named_gives {c : Context} (h : c.outputType 0 = .ok type) (kind : OperationKind) (name : String) :
    Gives b 1 (Rule.named c kind name) :=
  .known h (single_gives _)

theorem sink_gives (slots : List InputSlot) (kind : OperationKind) :
    Gives b 0 (Rule.sink ⟨node, s :: slots, []⟩ kind) := by
  refine .demand (c := ⟨node, s :: slots, []⟩) (s := s) fun value _ => ?_
  have recorded : Meets b (Build.record (.plain kind .untyped [value])) fun _ _ => True := .record trivial
  exact recorded.bind fun _ _ _ => .pure rfl

/-- A rule that sees the pins that its kind declares gives a value for each output. -/
theorem evaluate_counts {k : Kind} {c : Context} (inputs : c.inputs.length = k.inputSpecs.length)
    (outputs : c.outputs.length = k.outputSpecs.length) : Gives b k.outputSpecs.length (k.evaluate c) := by
  obtain ⟨node, slots, types⟩ := c
  dsimp only at inputs outputs
  cases k with
  | provider p => exact single_gives _
  | convert fromType toType =>
    obtain ⟨s, rfl⟩ := List.length_eq_one_iff.1 inputs
    obtain ⟨type, rfl⟩ := List.length_eq_one_iff.1 outputs
    exact convert_gives
  | concat element count => exact group_gives _ _
  | select element index =>
    obtain ⟨s, rfl⟩ := List.length_eq_one_iff.1 inputs
    obtain ⟨type, rfl⟩ := List.length_eq_one_iff.1 outputs
    exact select_gives index
  | render isArray =>
    obtain ⟨s₀, slots, rfl⟩ := List.exists_cons_of_length_eq_add_one inputs
    obtain ⟨s₁, s₂, s₃, rfl⟩ := List.length_eq_three.1 (Nat.succ.inj inputs)
    obtain ⟨type, rfl⟩ := List.length_eq_one_iff.1 outputs
    exact render_gives isArray s₀ s₁ s₂ s₃
  | editorRender =>
    obtain ⟨type, rfl⟩ := List.length_eq_one_iff.1 outputs
    exact .known rfl (single_gives _)
  | requireLock count => exact group_gives _ _
  | screen =>
    obtain ⟨s, s', rfl⟩ := List.length_eq_two.1 inputs
    obtain rfl := List.length_eq_zero_iff.1 outputs
    exact sink_gives [s'] _
  | property name type | vertexAttribute name type | sampler name =>
    obtain ⟨type, rfl⟩ := List.length_eq_one_iff.1 outputs
    exact named_gives rfl _ _
  | add type =>
    obtain ⟨s, s', rfl⟩ := List.length_eq_two.1 inputs
    obtain ⟨type, rfl⟩ := List.length_eq_one_iff.1 outputs
    let c : Context := ⟨node, [s, s'], [type]⟩
    exact .demand (c := c) (s := s) fun _ _ => .demand (c := c) (s := s') fun _ _ => .known rfl (single_gives _)
  | sample2D =>
    obtain ⟨s, s', rfl⟩ := List.length_eq_two.1 inputs
    obtain ⟨type, rfl⟩ := List.length_eq_one_iff.1 outputs
    exact .demand (c := ⟨node, [s, s'], [type]⟩) (s := s) fun _ _ => .known rfl (single_gives _)
  | materialOutput =>
    obtain ⟨s, rfl⟩ := List.length_eq_one_iff.1 inputs
    obtain rfl := List.length_eq_zero_iff.1 outputs
    exact sink_gives [] _

end Counting

/-! ## No faults -/

namespace Graph

variable [Evaluator ε] {g : Graph} {id : NodeId} {n : Node} {p : Progress ε}

def Faultless (answer : Except Stop Unit) : Prop := ∀ f, answer ≠ .error (.fault f)

theorem faultless_ok : Faultless (.ok ()) := fun _ h => by cases h

theorem faultless_mistake (e : CompileError) : Faultless (.error (.error e)) := fun _ h => by cases h

theorem compileNode_answers (sound : g.Sound) (sized : Every (fun o => o.shape.Sized) g)
    (hn : g.nodes.get? id = some n) (p : Progress ε) : Faultless (g.compileNode id n p).1 := by
  obtain ⟨inputCount, outputCount⟩ := sized_outline_iff.1 (sized id n hn)
  have context := sound.context_eq p.values hn
  generalize hc : (⟨id, (g.inputsOf n).map (seen p.values), (g.outputsOf n).map OutputPin.type⟩ : Context) = c
    at context
  have inputs : c.inputs.length = n.kind.inputSpecs.length := by
    rw [← hc, List.length_map, sound.inputsOf_length hn, inputCount]
  have outputs : c.outputs.length = n.kind.outputSpecs.length := by
    rw [← hc, List.length_map, sound.outputsOf_length hn, outputCount]
  have counts : Gives p.backend n.kind.outputSpecs.length (n.kind.evaluate c) := evaluate_counts inputs outputs
  unfold Gives Meets at counts
  unfold compileNode
  rw [context]
  dsimp only
  generalize (n.kind.evaluate c).run p.backend = out at counts
  cases counts with
  | mistaken e b => exact faultless_mistake e
  | @answered values b count =>
    dsimp only
    rw [if_pos (count.trans outputCount.symm)]
    exact faultless_ok

/-- A pass through a loaded graph runs into no fault. -/
theorem visit_answers (sound : g.Sound) (sized : Every (fun o => o.shape.Sized) g) (path : List NodeId)
    (id : NodeId) (p : Progress ε) (registered : ∃ n, g.nodes.get? id = some n) :
    Faultless (g.visit path id p).1 := by
  refine visit.induct g
    (fun path id p => (∃ n, g.nodes.get? id = some n) → Faultless (g.visit path id p).1)
    (fun path id pins p => (∀ pin ∈ pins, ∃ input, g.inputPins.get? pin = some input) →
      Faultless (g.visitInputs path id pins p).1)
    ?unregistered ?compiled ?cycle ?stopped ?settled ?noPins ?unfed ?free ?feederStopped ?feederSettled
    path id p registered
  case unregistered =>
    intro path id p unregistered registered
    obtain ⟨n, hn⟩ := registered
    rw [unregistered] at hn
    cases hn
  case compiled =>
    intro path id p n hn compiled _
    rw [visit_compiled hn compiled]
    exact faultless_ok
  case cycle =>
    intro path id p n hn fresh met _
    rw [visit_cycle hn fresh met]
    exact faultless_mistake _
  case stopped =>
    intro path id p n hn fresh new stop q stopped ih _
    have inputs := ih fun pin listed => by
      obtain ⟨input, hi, -⟩ := sound.inputListed id n hn pin listed
      exact ⟨input, hi⟩
    rw [stopped] at inputs
    rw [visit_stopped hn fresh new stopped]
    exact inputs
  case settled =>
    intro path id p n hn fresh new q settled _ _
    rw [visit_settled hn fresh new settled]
    exact compileNode_answers sound sized hn q
  case noPins =>
    intro path id p _
    rw [visitInputs_nil]
    exact faultless_ok
  case unfed =>
    intro path id p pin pins stop unfed registered
    obtain ⟨input, hi⟩ := registered pin List.mem_cons_self
    obtain ⟨-, -, rfl⟩ := sound.unfed hi unfed
    rw [visitInputs_unfed unfed]
    exact faultless_mistake _
  case free =>
    intro path id p pin pins free ih registered
    rw [visitInputs_free free]
    exact ih fun k member => registered k (List.mem_cons_of_mem _ member)
  case feederStopped =>
    intro path id p pin pins feeder fed stop q stopped ih registered
    obtain ⟨input, hi⟩ := registered pin List.mem_cons_self
    obtain ⟨o, n, -, rfl, hn⟩ := sound.fed hi fed
    have visited := ih ⟨n, hn⟩
    rw [stopped] at visited
    rw [visitInputs_stopped fed stopped]
    exact visited
  case feederSettled =>
    intro path id p pin pins feeder fed q settled _ rest registered
    rw [visitInputs_fed fed settled]
    exact rest fun k member => registered k (List.mem_cons_of_mem _ member)

/-- An evaluation of a loaded graph succeeds or ends with a mistake of the user. -/
theorem evaluate_answers (sound : g.Sound) (sized : Every (fun o => o.shape.Sized) g) (b : ε) :
    Faultless (g.evaluate b).result := by
  cases chosen : g.terminal with
  | none =>
    rw [evaluate_unchosen chosen]
    exact faultless_mistake _
  | some terminal =>
    obtain ⟨-, -, result⟩ := evaluate_chosen chosen b
    rw [result]
    exact visit_answers sound sized [] terminal _ (sound.terminalKnown terminal chosen)

end Graph

end FrameGraph
