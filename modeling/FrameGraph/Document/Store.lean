/-
  FrameGraph.Document.Store: documents as texts and as files.

  A graph document is a format version and a graph. Reading one checks the notation first,
  then the version, then the graph. A file has to be UTF-8; one that cannot be read counts as
  missing.
-/

import FrameGraph.Document.Decode
import FrameGraph.Document.Encode
import FrameGraph.Document.Schema
import FrameGraph.Graph.Check
import FrameGraph.Ron.Printer

namespace FrameGraph

/-- The text of a file, if there is one and it is text. -/
def fileText? (content : Option ByteArray) : Option String := content.bind String.fromUTF8?

/-! ## Graphs -/

inductive GraphDocumentError where
  | unreadable
  | malformed
  | unsupportedVersion (found supported : Nat)
  | defect (d : GraphDefect)
  deriving DecidableEq, Repr

def GraphDocumentError.message : GraphDocumentError → String
  | unreadable => "Graph I/O error"
  | malformed => "Invalid graph document"
  | unsupportedVersion found supported =>
    "Graph format version " ++ toString found ++ " is newer than supported version "
      ++ toString supported
  | defect d => d.message

namespace Graph

def formatVersion : Nat := 1

def print (g : Graph) : String := (Encode.document formatVersion g).print

def ofDocument (version : Nat) (g : Graph) : Except GraphDocumentError Graph :=
  if version > formatVersion then .error (.unsupportedVersion version formatVersion)
  else g.restore.mapError .defect

def parse (s : String) : Except GraphDocumentError Graph :=
  match (Schema.document.read? s).bind Decode.document with
  | none => .error .malformed
  | some (version, g) => ofDocument version g

def load (content : Option ByteArray) : Except GraphDocumentError Graph :=
  match fileText? content with
  | none => .error .unreadable
  | some s => parse s

end Graph

/-! ## Settings -/

inductive SettingsError where
  | unreadable
  | malformed
  deriving DecidableEq, Repr

def SettingsError.message : SettingsError → String
  | unreadable => "Settings I/O error"
  | malformed => "Invalid settings"

namespace Settings

def print (s : Settings) : String := (Encode.settings s).print

def parse (s : String) : Except SettingsError Settings :=
  match (Schema.settings.read? s).bind Decode.settings with
  | none => .error .malformed
  | some settings => .ok settings

def load (content : Option ByteArray) : Except SettingsError Settings :=
  match fileText? content with
  | none => .error .unreadable
  | some s => parse s

end Settings

/-! ## Pipelines -/

namespace Pipeline

def print (p : Pipeline) : String := (Encode.pipeline p).print

def parse? (s : String) : Option Pipeline :=
  (Schema.pipeline.read? s).bind Decode.pipeline

end Pipeline

end FrameGraph
