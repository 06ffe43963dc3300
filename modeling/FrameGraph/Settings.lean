/-
  FrameGraph.Settings: the knobs of both back ends.
-/

namespace FrameGraph

inductive Stage where
  | fragment
  | vertex
  deriving DecidableEq, Repr

def Stage.label : Stage → String
  | fragment => "fragment"
  | vertex => "vertex"

/-- The material names the program's symbols; the varyings go from the vertex to the fragment
stage; the texture coordinate is the varying that is sampled without one given; the interface
is handed to the toolchain. -/
structure Settings where
  material : String
  stage : Stage
  varyings : List String
  includes : List String
  texcoord : String
  interface : String
  trace : Bool
  deriving DecidableEq, Repr

def Settings.standard : Settings where
  material := "Material"
  stage := .fragment
  varyings := ["v_normal", "v_texcoord"]
  includes := ["bgfx_shader.sh", "shaderLib.sh"]
  texcoord := "v_texcoord"
  interface := "varying.def.sc"
  trace := false

instance : Inhabited Settings := ⟨.standard⟩

def Settings.forMaterial (material : String) : Settings := { Settings.standard with material }

end FrameGraph
