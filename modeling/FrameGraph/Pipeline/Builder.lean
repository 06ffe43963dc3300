/-
  FrameGraph.Pipeline.Builder: the back end that makes pipelines.

  Operations and groups are recorded in one table; a handle is a place in it. Taking the
  pipeline drops the groups: an operation's position is the number of operations recorded
  before it, and an operand that is a group becomes the positions of all operations in it, in
  order, however deep the groups are nested. A builder gives its pipeline once.
-/

import FrameGraph.Compile.Pass
import FrameGraph.Pipeline.Basic

namespace FrameGraph

namespace Pipeline

inductive Entry where
  | operation (op : Operation)
  | group (name : String) (members : List Handle)
  deriving DecidableEq, Repr

def Entry.operation? : Entry → Option Operation
  | operation op => some op
  | group .. => none

def Entry.members? : Entry → Option (List Handle)
  | operation _ => none
  | group _ members => some members

structure Builder where
  entries : Array Entry
  conversions : ConversionTable
  trace : Bool
  taken : Bool

namespace Builder

def offering (conversions : ConversionTable) (trace : Bool) : Builder := ⟨#[], conversions, trace, false⟩

def new (conversions : Conversions) (trace : Bool) : Builder := .offering conversions.table trace

def push (b : Builder) (e : Entry) : Builder × Handle :=
  ({ b with entries := b.entries.push e }, ⟨b.entries.size⟩)

instance : Evaluator Builder where
  addOperation b op := b.push (.operation op)
  addArray b name members := b.push (.group name members)
  operation? b value := b.entries[value.index]?.bind Entry.operation?
  arrayMembers? b value := b.entries[value.index]?.bind Entry.members?
  conversion? b source target := b.conversions.get? (source, target)

/-- The operations recorded so far, groups left out. -/
def operations (b : Builder) : List Operation := b.entries.toList.filterMap Entry.operation?

/-! ## Taking the pipeline -/

/-- The number of operations recorded before a place. -/
def position (entries : Array Entry) (index : Nat) : Nat :=
  (entries.toList.take index).countP fun e => e.operation?.isSome

/-- Positions of the operations under a value, through at most `depth` levels. -/
def flatten (entries : Array Entry) : Nat → Handle → Except Fault (List Nat)
  | 0, value => .error (.endlessGroup value)
  | depth + 1, value =>
    match entries[value.index]? with
    | none => .error (.unrecordedValue value)
    | some (.operation _) => .ok [position entries value.index]
    | some (.group _ members) => do
      return (← members.mapM (flatten entries depth)).flatten

/-- A group that contains itself has more levels than the table has entries. -/
def resolve (entries : Array Entry) (value : Handle) : Except Fault Operand := do
  let positions ← flatten entries entries.size value
  match entries[value.index]? with
  | some (.operation _) => return .single (position entries value.index)
  | _ => return .many positions

def resolveOperation (entries : Array Entry) (op : Operation) : Except Fault PipelineOperation := do
  return ⟨op.kind, op.name, op.type, ← op.operands.mapM (resolve entries)⟩

/-- An operation is reported once its operands are resolved. -/
def transferEvents (b : Builder) : List Event :=
  if b.trace then
    (b.operations.takeWhile fun op => (resolveOperation b.entries op).isOk).mapIdx
      fun i op => .transferred i op.kind.name op.name
  else []

/-- A builder and a sink after the pipeline was handed over, or was not. -/
structure Taking where
  builder : Builder
  sink : Pipeline
  events : List Event
  answer : Except Stop Unit

/-- The sink, if the pipeline is in it. -/
def Taking.result (t : Taking) : Except Stop Pipeline := t.answer.map fun _ => t.sink

theorem Taking.sink_eq {t : Taking} {p : Pipeline} (given : t.result = .ok p) : t.sink = p := by
  unfold result at given
  cases answer : t.answer with
  | error stop =>
    rw [answer] at given
    cases given
  | ok =>
    rw [answer] at given
    exact Except.ok.inj given

/-- Appends the recorded operations to a pipeline. -/
def transfer (b : Builder) (sink : Pipeline) : Taking :=
  if b.taken then ⟨b, sink, [.pipelineTakenTwice], .error (.error .alreadyCompiled)⟩
  else
    let spent := { b with entries := #[], taken := true }
    let events := .constructingPipeline :: b.transferEvents
    -- All operands are resolved before the first operation is appended.
    match b.operations.mapM (resolveOperation b.entries) with
    | .ok operations => ⟨spent, sink.append operations, events, .ok ()⟩
    | .error f => ⟨spent, sink, events, .error (.fault f)⟩

def extract (b : Builder) : Taking :=
  let taking := b.transfer .empty
  match taking.answer with
  | .error _ => taking
  | .ok () => { taking with events := taking.events ++ if b.trace then taking.sink.events else [] }

variable (b : Builder) (sink : Pipeline)

theorem transfer_result : (b.transfer sink).result = if b.taken then .error (.error .alreadyCompiled)
    else ((b.operations.mapM (resolveOperation b.entries)).mapError .fault).map sink.append := by
  unfold transfer
  split
  · rfl
  · dsimp only
    cases b.operations.mapM (resolveOperation b.entries) <;> rfl

theorem transfer_builder : (b.transfer sink).builder
    = if b.taken then b else { b with entries := #[], taken := true } := by
  unfold transfer
  split
  · rfl
  · dsimp only
    cases b.operations.mapM (resolveOperation b.entries) <;> rfl

theorem extract_result : b.extract.result = (b.transfer .empty).result := by
  unfold extract
  dsimp only
  split
  · rfl
  · simp only [Taking.result]

theorem extract_builder : b.extract.builder = (b.transfer .empty).builder := by
  unfold extract
  dsimp only
  split <;> rfl

end Builder

end Pipeline

end FrameGraph
