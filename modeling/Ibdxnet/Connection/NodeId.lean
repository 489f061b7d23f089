import Mathlib.Data.Nat.Basic

/-!
# Node ids

`con::NodeId` is a 16 bit number.  Every table indexed by node ids has
`NODE_ID_MAX_NUM_NODES` entries; the one id past their end is the invalid one.
-/

namespace Ibdxnet.Con

/-- `typedef uint16_t NodeId`. -/
abbrev NodeId := UInt16

/-- `NODE_ID_INVALID` -/
def nodeIdInvalid : NodeId := 0xFFFF

/-- `NODE_ID_MAX_NUM_NODES`: the size of every table indexed by node ids. -/
def nodeIdMaxNumNodes : Nat := 0xFFFF

end Ibdxnet.Con
