/-
  FrameGraph.PinType: what a pin carries.

  A type is a base name and whether the pin carries an array of it. Two pins can be joined
  only when both parts agree and the base is not the untyped one, so `Eye` never meets
  `Eye[]` without a node between them. A type is written as its base, followed by `[]` for an
  array; reading takes exactly what writing gives, with white space around it, for bases that
  are not empty and hold neither brackets nor white space.
-/

import FrameGraph.Text.Writing

namespace FrameGraph

/-! ## Base names -/

namespace Base

def none : String := "None"
def camera : String := "Camera"
def eye : String := "Eye"
def target : String := "Target"
def entity : String := "Entity"
def require : String := "Require"
def float : String := "float"
def vec2 : String := "vec2"
def vec3 : String := "vec3"
def vec4 : String := "vec4"
def texture2D : String := "texture2D"

end Base

/-! ## Forms of a type -/

structure PinType where
  base : String
  isArray : Bool
  deriving DecidableEq, Repr

namespace PinType

def scalar (base : String) : PinType := ⟨base, false⟩

def array (base : String) : PinType := ⟨base, true⟩

def untyped : PinType := scalar Base.none

instance : Inhabited PinType := ⟨untyped⟩

/-- Holds for both array forms of the untyped base. -/
def isUntyped (t : PinType) : Bool := t.base == Base.none

def toArray (t : PinType) : PinType := array t.base

def element (t : PinType) : PinType := scalar t.base

def withArray (t : PinType) (isArray : Bool) : PinType := ⟨t.base, isArray⟩

def compatible (a b : PinType) : Bool := a == b && !a.isUntyped

/-! ## Written form -/

instance : ToString PinType := ⟨fun t => if t.isArray then t.base ++ "[]" else t.base⟩

/-- Text that does not name a type, with the white space around it gone. -/
structure Invalid where
  text : String
  deriving DecidableEq, Repr

def Invalid.message (e : Invalid) : String :=
  "Invalid pin type: " ++ Text.displayed e.text

/-- Splits a final pair of brackets from what stands before it. -/
def splitBrackets (cs : List Char) : List Char × Bool :=
  if ['[', ']'].isSuffixOf cs then (cs.take (cs.length - 2), true) else (cs, false)

def isBaseChar (c : Char) : Bool :=
  c != '[' && c != ']' && !Text.isBlank c

def parse (s : String) : Except Invalid PinType :=
  let cs := Text.trim s.toList
  let (base, isArray) := splitBrackets cs
  if base.isEmpty || !base.all isBaseChar then .error ⟨String.ofList cs⟩
  else .ok ⟨String.ofList base, isArray⟩

end PinType

end FrameGraph
