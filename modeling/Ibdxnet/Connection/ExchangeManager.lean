import Ibdxnet.Connection.ConnectionManager

/-!
# The exchange manager

`con::ExchangeManager::_RunLoop` over the bytes it receives: the packet header
at the start of the receive buffer, the checks on it, and the two dispatchers,
`DiscoveryManager::_DispatchExchangeData` and
`ConnectionManager::_DispatchExchangeData`, which add jobs.

    0        4       5                 7         11       21
    magic    type    source node id    length    header   connection data …

The headers are packed and little endian.  The buffer keeps what earlier
datagrams left in it: the length a packet declares is compared with the size of
the buffer, not with what was received.
-/

namespace Ibdxnet.Con

/-- The receive buffer.  Only the bytes below `maxPaketSize` are ever written. -/
abbrev Buffer := Nat → UInt8

namespace Buffer

variable (b : Buffer)

/-- `recvfrom` writes a datagram to the start of the buffer. -/
def write (datagram : List UInt8) : Buffer := fun i => datagram.getD i (b i)

def uint16At (i : Nat) : UInt16 := (b i).toUInt16 ||| (b (i + 1)).toUInt16 <<< 8

def uint32At (i : Nat) : UInt32 :=
  (b i).toUInt32 ||| (b (i + 1)).toUInt32 <<< 8 ||| (b (i + 2)).toUInt32 <<< 16 |||
    (b (i + 3)).toUInt32 <<< 24

end Buffer

/-- `ExchangeManager::PaketHeader` -/
structure PaketHeader where
  magic : UInt32
  paketType : UInt8
  sourceNodeId : NodeId
  length : UInt32
  deriving DecidableEq, Repr

/-- `sizeof(PaketHeader)` -/
def sizeOfPaketHeader : Nat := 11

/-- `sizeof(RemoteConnectionHeader)` -/
def sizeOfRemoteConnectionHeader : Nat := 10

namespace Buffer

variable (b : Buffer)

def paketHeader : PaketHeader where
  magic := b.uint32At 0
  paketType := b 4
  sourceNodeId := b.uint16At 5
  length := b.uint32At 7

/-- The connection header behind the packet header. -/
def remoteConnectionHeader : RemoteConnectionHeader where
  nodeId := b.uint16At sizeOfPaketHeader
  exchgFlags := (b (sizeOfPaketHeader + 2)).toBitVec
  exchgFlagsRemote := (b (sizeOfPaketHeader + 3)).toBitVec
  lid := b.uint16At (sizeOfPaketHeader + 4)
  conManIdent := b.uint32At (sizeOfPaketHeader + 6)

/-- The copy of the connection data.  Where it is shorter than a
`RemoteConnectionData`, `Connect` does not read it. -/
def remoteConnectionData : RemoteConnectionData where
  physicalQPId := b.uint32At (sizeOfPaketHeader + sizeOfRemoteConnectionHeader)
  psn := b.uint32At (sizeOfPaketHeader + sizeOfRemoteConnectionHeader + 4)

end Buffer

/-- The exchange manager with the job side it feeds. -/
structure ExchangeManager where
  recvBuffer : Buffer
  noDataAvailable : Bool := false
  /-- the addresses a discovery response was sent to -/
  discoveryResps : List UInt32 := []
  manager : ConnectionManager

abbrev ExchangeM := EStateM Sys.Exception ExchangeManager

namespace ExchangeManager

/-- `MAX_PAKET_SIZE` -/
def maxPaketSize : Nat := 1024 * 64

/-- `PAKET_MAGIC` -/
def paketMagic : UInt32 := 0xBEEFCA4E

/-! The packet types, as the constructors of the discovery manager and then of
the connection manager generate them. -/

def discoverReqExchgPaketType : UInt8 := 0

def discoverRespExchgPaketType : UInt8 := 1

def conDataExchgPaketType : UInt8 := 2

def paketTypeIdCounter : UInt8 := 3

def addJob (job : Job) : ExchangeM Unit :=
  modify fun w => { w with manager := { w.manager with jobQueue := w.manager.jobQueue ++ [job] } }

/-- `DiscoveryManager::_DispatchExchangeData` -/
def dispatchDiscovery (sourceIPV4 : UInt32) (paketHeader : PaketHeader) : ExchangeM Unit :=
  if paketHeader.paketType = discoverReqExchgPaketType then
    modify fun w => { w with discoveryResps := w.discoveryResps ++ [sourceIPV4] }
  else if paketHeader.paketType = discoverRespExchgPaketType then
    addJob (.discovered sourceIPV4 paketHeader.sourceNodeId)
  else
    pure ()

/-- `ConnectionManager::_DispatchExchangeData` -/
def dispatchConDataExchg (paketHeader : PaketHeader) : ExchangeM Unit := do
  if paketHeader.paketType = conDataExchgPaketType then
    if paketHeader.length.toNat < sizeOfRemoteConnectionHeader then
      throw (.illegalState "Exchg data invalid packet header length, source %s")
    else
      let w ← get
      addJob (.connectConnection
        { header := w.recvBuffer.remoteConnectionHeader
          data := w.recvBuffer.remoteConnectionData
          size := paketHeader.length.toNat - sizeOfRemoteConnectionHeader })
  else
    pure ()

/-- The dispatchers registered for a packet type: the discovery manager for its
two types, the connection manager for the exchange data. -/
def dispatchExchangeData (sourceIPV4 : UInt32) (paketHeader : PaketHeader) : ExchangeM Unit :=
  if paketHeader.paketType = conDataExchgPaketType then
    dispatchConDataExchg paketHeader
  else
    dispatchDiscovery sourceIPV4 paketHeader

/-- The check `_RunLoop` makes on a header. -/
def Valid (paketHeader : PaketHeader) : Prop :=
  paketHeader.magic = paketMagic ∧ paketHeader.paketType < paketTypeIdCounter ∧
    sizeOfPaketHeader + paketHeader.length.toNat ≤ maxPaketSize

instance (paketHeader : PaketHeader) : Decidable (Valid paketHeader) := by
  unfold Valid
  infer_instance

/-- `_RunLoop`, when `Receive` yields `datagram`: no bytes stand for no data
and for an error of the socket. -/
def runLoop (sourceIPV4 : UInt32) (datagram : List UInt8) : ExchangeM Unit := do
  let received := datagram.take maxPaketSize
  modify fun w => { w with recvBuffer := w.recvBuffer.write received }
  if received.length < sizeOfPaketHeader then
    modify fun w => { w with noDataAvailable := true }
  else
    let w ← get
    let paketHeader := w.recvBuffer.paketHeader
    if Valid paketHeader then
      dispatchExchangeData sourceIPV4 paketHeader
    else
      pure ()

/-! ## Runs -/

/-- The node id a job indexes `m_nodeInfo`, `m_connections` and
`m_connectionStates` with, if it gets to index one of them. -/
def tableIndex (m : ConnectionManager) : Job → Option NodeId
  | .createConnection targetNodeId => if m.flagShutdown then none else some targetNodeId
  | .connectConnection remote => if m.flagShutdown then none else some remote.header.nodeId
  | .closeConnection nodeId _ _ => some nodeId
  | .discover => none
  | .discovered targetIPV4 nodeIdDiscovered =>
    match DiscoveryManager.takeEntry targetIPV4 m.discoveryManager.infoToGet with
    | some (some _) => some nodeIdDiscovered
    | _ => none

/-- The id is one of a table's entries. -/
def InRange (nodeId : NodeId) : Prop := nodeId.toNat < nodeIdMaxNumNodes

instance (nodeId : NodeId) : Decidable (InRange nodeId) := by
  unfold InRange
  infer_instance

inductive Action
  /-- one pass of the receive loop -/
  | receive (sourceIPV4 : UInt32) (datagram : List UInt8)
  /-- a step of the job thread or of an application thread -/
  | manager (a : ConnectionManager.Action)

/-- Every table access of the next step is in range. -/
def Indexes (m : ConnectionManager) : ConnectionManager.Action → Prop
  | .runJob _ => ∀ job ∈ m.jobQueue.head?, ∀ nodeId ∈ tableIndex m job, InRange nodeId
  | .requestCreation nodeId => InRange nodeId
  | .giveUpCreation nodeId => InRange nodeId
  | .addJob _ => True
  | .shutdown => True

-- at most one job and one node id are looked at, not every node id
instance (m : ConnectionManager) : ∀ a, Decidable (Indexes m a)
  | .runJob _ =>
    have (job : Job) : Decidable (∀ nodeId ∈ tableIndex m job, InRange nodeId) :=
      Option.decidableForallMem _
    inferInstanceAs (Decidable (∀ job ∈ m.jobQueue.head?, _))
  | .requestCreation nodeId | .giveUpCreation nodeId => inferInstanceAs (Decidable (InRange nodeId))
  | .addJob _ | .shutdown => inferInstanceAs (Decidable True)

/-- One step.  An exception that leaves the loop or a job ends the process, and
an access out of range has no defined result: neither leads to a further state. -/
def step (w : ExchangeManager) : Action → Option ExchangeManager
  | .receive sourceIPV4 datagram =>
    match (runLoop sourceIPV4 datagram).run w with
    | .ok _ w' => some w'
    | .error _ _ => none
  | .manager a =>
    if Indexes w.manager a then
      (ConnectionManager.step w.manager a).map fun manager => { w with manager }
    else
      none

/-- What `con::ExchangeManager` and `con::ConnectionManager` start with, `nodes`
being those of the node configuration to discover.  The receive buffer is not
initialized. -/
def new (p : ConnectionManager.Params) (nodes : List Entry) (recvBuffer : Buffer) :
    ExchangeManager :=
  { recvBuffer
    manager := ConnectionManager.new
      { p with discoveryManager := { infoToGet := nodes.map some } } }

end ExchangeManager

end Ibdxnet.Con
