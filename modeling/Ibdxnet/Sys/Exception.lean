import Ibdxnet.Connection.NodeId

/-!
# Exceptions

The exception classes the modelled code throws, each with the format string of
the place that throws it.  `poolIllegalState` is the `throw new
sys::IllegalStateException(...)` of the work request pools: the thrown value is
a pointer, so that no `catch (sys::IllegalStateException&)` takes it.
`formatError` is `fmt::FormatError`, thrown while the text of another exception is
formatted; it is not one of the classes of this library.
-/

namespace Ibdxnet.Sys

open Ibdxnet.Con

inductive Exception
  | illegalState (reason : String)
  | poolIllegalState (reason : String)
  | ibException (reason : String)
  | ibQueueFull (reason : String)
  | timeout (reason : String)
  | invalidNodeId (reason : String)
  | disconnected (nodeId : NodeId)
  | nodeNotAvailable (nodeId : NodeId)
  | formatError (reason : String)
  deriving DecidableEq, Repr

end Ibdxnet.Sys
