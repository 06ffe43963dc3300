import FrameGraph.Binary
import FrameGraph.Binary32
import FrameGraph.CommandLine
import FrameGraph.Compile.Context
import FrameGraph.Compile.Conversion
import FrameGraph.Compile.Evaluator
import FrameGraph.Compile.Operation
import FrameGraph.Compile.Pass
import FrameGraph.Compile.Rule
import FrameGraph.Compiler
import FrameGraph.Decimal
import FrameGraph.Document.Decode
import FrameGraph.Document.Encode
import FrameGraph.Document.Schema
import FrameGraph.Document.Store
import FrameGraph.Error
import FrameGraph.Graph.Basic
import FrameGraph.Graph.Check
import FrameGraph.Graph.Configure
import FrameGraph.Graph.Connect
import FrameGraph.Graph.Links
import FrameGraph.Graph.Nodes
import FrameGraph.Id
import FrameGraph.Log
import FrameGraph.Main
import FrameGraph.Node.Kind
import FrameGraph.Node.Shape
import FrameGraph.PinType
import FrameGraph.Pipeline.Basic
import FrameGraph.Pipeline.Builder
import FrameGraph.Program.Basic
import FrameGraph.Program.Builder
import FrameGraph.Proofs.Compile.Meaning
import FrameGraph.Proofs.Document.Decoding
import FrameGraph.Proofs.Document.Identifiers
import FrameGraph.Proofs.Document.Saving
import FrameGraph.Proofs.Notation.Digits
import FrameGraph.Proofs.Notation.Floats
import FrameGraph.Proofs.Notation.Printed
import FrameGraph.Proofs.Notation.Quotes
import FrameGraph.Proofs.Notation.Reading
import FrameGraph.Proofs.Notation.Words
import FrameGraph.Proofs.Results
import FrameGraph.Proofs.Shapes
import FrameGraph.Proofs.Store.Agreement
import FrameGraph.Proofs.Store.Configuring
import FrameGraph.Proofs.Store.Connecting
import FrameGraph.Proofs.Store.Links
import FrameGraph.Proofs.Store.Loading
import FrameGraph.Proofs.Store.Nodes
import FrameGraph.Proofs.Store.Outlines
import FrameGraph.Proofs.Store.Repainted
import FrameGraph.Proofs.Store.Runs
import FrameGraph.Proofs.Store.Sound
import FrameGraph.Proofs.Tables
import FrameGraph.Ron.Decode
import FrameGraph.Ron.Gap
import FrameGraph.Ron.Interior
import FrameGraph.Ron.Number
import FrameGraph.Ron.Printer
import FrameGraph.Ron.Quoted
import FrameGraph.Ron.Reader
import FrameGraph.Ron.Scalar
import FrameGraph.Ron.Schema
import FrameGraph.Ron.Unknown
import FrameGraph.Ron.Value
import FrameGraph.Ron.Word
import FrameGraph.Settings
import FrameGraph.Table
import FrameGraph.Text.Characters
import FrameGraph.Text.Writing
import FrameGraph.Uuid
import FrameGraph.Proofs.Compile.Parallel
import FrameGraph.Proofs.Compile.Renaming
import FrameGraph.Proofs.Compile.Interchange
import FrameGraph.Proofs.Compile.Artifacts
import FrameGraph.Proofs.Compile.Journal
import FrameGraph.Proofs.Compile.Ordering
import FrameGraph.Proofs.Compile.Typing
import FrameGraph.Proofs.Compile.TypeSafety
import FrameGraph.Proofs.Compile.References
import FrameGraph.Proofs.Compile.Extraction
import FrameGraph.Proofs.Store.Refusals
import FrameGraph.Proofs.Store.Acceptance
import FrameGraph.Proofs.Compile.Cycles
import FrameGraph.Proofs.Store.Joining
import FrameGraph.Proofs.Store.Adoption
import FrameGraph.Proofs.Document.Lifetime
import FrameGraph.Proofs.Compile.Statements
import FrameGraph.Proofs.Compile.Assignments
import FrameGraph.Proofs.Store.Removing
import FrameGraph.Proofs.Workbench
import FrameGraph.Proofs.Compile.Restraint
import FrameGraph.Proofs.Compile.Aftermath
import FrameGraph.Proofs.Document.Trust
import FrameGraph.Proofs.Compile.Uniforms
import FrameGraph.Proofs.Compile.Varyings
import FrameGraph.Proofs.Notation.TypeNames
import FrameGraph.Proofs.Compile.Deliveries
import FrameGraph.Proofs.Compile.Sharing
import FrameGraph.Proofs.Compile.Forms
import FrameGraph.Proofs.Compile.Expressions
