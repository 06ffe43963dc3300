/-
  FrameGraph.Compile.Conversion: which conversions a back end offers.

  A back end maps a pair of base names to the conversion that leads from the first to the
  second. A conversion turns a value and the wanted type into one operation; any function that
  does so can be offered. The library knows three, each with a kind of operation of its own.
-/

import FrameGraph.Compile.Operation
import FrameGraph.Table

namespace FrameGraph

structure Conversion where
  operation : Handle → PinType → Operation

abbrev ConversionTable := Table (String × String) Conversion

namespace Conversion

inductive Known where
  | eyeFromCamera
  | targetFromCamera
  | construct
  deriving DecidableEq, Repr

namespace Known

def kind : Known → OperationKind
  | eyeFromCamera => .eyeFromCamera
  | targetFromCamera => .targetFromCamera
  | construct => .construct

def conversion (c : Known) : Conversion := ⟨fun value type => .plain c.kind type [value]⟩

end Known

/-- What is found among known conversions can be used as any conversion. -/
instance : Coe (Option Known) (Option Conversion) := ⟨Option.map Known.conversion⟩

end Conversion

/-! ## Tables of known conversions -/

abbrev Conversions := Table (String × String) Conversion.Known

namespace Conversions

def find? (c : Conversions) (source target : String) : Option Conversion.Known :=
  c.get? (source, target)

def table (c : Conversions) : ConversionTable :=
  c.map Conversion.Known.conversion

theorem get?_table (c : Conversions) (source target : String) :
    c.table.get? (source, target) = c.find? source target :=
  Table.get?_map ..

def pipeline : Conversions :=
  .ofList [((Base.camera, Base.eye), .eyeFromCamera), ((Base.camera, Base.target), .targetFromCamera)]

def material : Conversions :=
  .ofList [((Base.float, Base.vec2), .construct), ((Base.float, Base.vec3), .construct),
    ((Base.float, Base.vec4), .construct), ((Base.vec2, Base.vec4), .construct),
    ((Base.vec3, Base.vec4), .construct)]

end Conversions

end FrameGraph
