import Ibdxnet.Connection.ConnectionState
import Ibdxnet.Sys.Exception

/-!
# One end of a connection

`con::Connection` as `msgrc::Connection` implements it: the queue pair's own
id and packet sequence number, which its exchange data announces, and what the
`Connect` call stored of the remote.  The verbs calls of `Connect` are outside
the repository; whether they succeed is an argument.
-/

namespace Ibdxnet.Con

abbrev ConnectionId := UInt16

structure RemoteConnectionHeader where
  nodeId : NodeId := nodeIdInvalid
  exchgFlags : ExchgFlags := 0
  exchgFlagsRemote : ExchgFlags := 0
  lid : UInt16 := 0xFFFF
  conManIdent : UInt32 := 0xFFFFFFFF
  deriving DecidableEq, Repr

/-- `msgrc::Connection::RemoteConnectionData` -/
structure RemoteConnectionData where
  physicalQPId : UInt32 := 0
  psn : UInt32 := 0
  deriving DecidableEq, Repr

/-- `sizeof(RemoteConnectionData)` -/
def sizeOfRemoteConnectionData : Nat := 8

/-- One datagram of connection exchange data: the header, the connection data
behind it and that data's size. -/
structure ConnectionExchgData where
  header : RemoteConnectionHeader
  data : RemoteConnectionData
  size : Nat := sizeOfRemoteConnectionData
  deriving DecidableEq, Repr

structure Connection where
  connectionId : ConnectionId
  ibPhysicalQPId : UInt32
  ibPsn : UInt32
  remoteConnectionHeader : RemoteConnectionHeader := {}
  remoteConnectionData : RemoteConnectionData := {}
  deriving DecidableEq, Repr

namespace Connection

def getRemoteConnectionManIdent (c : Connection) : UInt32 :=
  c.remoteConnectionHeader.conManIdent

def createConnectionExchangeData (c : Connection) : RemoteConnectionData :=
  { physicalQPId := c.ibPhysicalQPId, psn := c.ibPsn }

/-- What `Connect` stores before it changes the state of the queue pair. -/
def connect (c : Connection) (remote : ConnectionExchgData) : Connection :=
  { c with
    remoteConnectionHeader := remote.header
    remoteConnectionData := remote.data }

variable (c : Connection) (remote : ConnectionExchgData)

@[simp] theorem connect_connectionId : (c.connect remote).connectionId = c.connectionId := rfl

@[simp] theorem connect_createConnectionExchangeData :
    (c.connect remote).createConnectionExchangeData = c.createConnectionExchangeData := rfl

@[simp] theorem connect_remoteConnectionHeader :
    (c.connect remote).remoteConnectionHeader = remote.header := rfl

@[simp] theorem connect_remoteConnectionData :
    (c.connect remote).remoteConnectionData = remote.data := rfl

end Connection

end Ibdxnet.Con
