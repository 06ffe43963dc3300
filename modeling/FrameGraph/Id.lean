/-
  FrameGraph.Id: names of things.

  Nodes, pins and links of a graph are named by numbers drawn from one counter; each kind of
  name has its own type, so that a pin can never be looked up as a link. A handle names a
  value that a back end has recorded while a graph is compiled.
-/

namespace FrameGraph

structure NodeId where
  val : Nat
  deriving DecidableEq, Repr

structure PinId where
  val : Nat
  deriving DecidableEq, Repr

structure LinkId where
  val : Nat
  deriving DecidableEq, Repr

structure Handle where
  index : Nat
  deriving DecidableEq, Repr

instance : ToString NodeId := ⟨fun i => "node#" ++ toString i.val⟩
instance : ToString PinId := ⟨fun i => "pin#" ++ toString i.val⟩
instance : ToString LinkId := ⟨fun i => "link#" ++ toString i.val⟩

end FrameGraph
