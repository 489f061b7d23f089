import Ibdxnet.Connection.Connection
import Ibdxnet.Connection.DiscoveryManager
import Ibdxnet.Lib.Exec
import Ibdxnet.Lib.Lts

/-!
# The connection manager

`con::ConnectionManager` as its job thread runs it: one job of the queue at a
time, each taken from the source statement by statement.

    createConnection n      allocate the connection if its creation was requested,
                            send the exchange data
    connectConnection data  allocate, connect to the sender, note what it announces;
                            complete the connection, or answer
    closeConnection n       remove the connection, forget the node

Application threads take part through `requestCreation` and `giveUpCreation`,
the two writes of `GetConnection` to `m_state`, and through the jobs they add.
What `_CreateConnection` and the verbs calls of `Connect` yield is an argument
of each job (`Environment`).
-/

namespace Ibdxnet.Con

inductive Job
  | createConnection (targetNodeId : NodeId)
  | connectConnection (remote : ConnectionExchgData)
  | closeConnection (nodeId : NodeId) (force shutdown : Bool)
  | discover
  | discovered (targetIPV4 : UInt32) (nodeIdDiscovered : NodeId)
  deriving DecidableEq, Repr

/-- What the manager calls, in order: the connection it drives, the hooks of its
subclass, the listeners, the requests of the discovery. -/
inductive Call
  | createConnection (remoteNodeId : NodeId) (data : RemoteConnectionData)
  | connect (nodeId : NodeId) (remote : ConnectionExchgData)
  | close (nodeId : NodeId) (force : Bool)
  | connectionOpened (nodeId : NodeId)
  | nodeConnected (nodeId : NodeId)
  | connectionClosed (nodeId : NodeId)
  | nodeDisconnected (nodeId : NodeId)
  | nodeInvalidated (nodeId : NodeId)
  | nodeDiscovered (nodeId : NodeId)
  | discoveryReq (ipv4 : UInt32)
  deriving DecidableEq, Repr

/-- Why a job does not return. -/
inductive Failure
  | thrown (e : Sys.Exception)
  /-- a null pointer is dereferenced -/
  | nullPointer
  /-- `back()` of an empty vector -/
  | emptyVector
  /-- a table is accessed past its end -/
  | outOfRange
  /-- the wait loop of a close job yields again -/
  | yields
  deriving DecidableEq, Repr

/-- What code outside the manager does during one job: the queue pair data of a
new connection, the verbs calls of `Connect`, and the value of `m_available`
the last load of a close job's wait loop reads. -/
structure Environment where
  created : Except Sys.Exception RemoteConnectionData := .ok {}
  connected : Except Sys.Exception Unit := .ok ()
  loaded : Int := connectionClosing

structure ConnectionManager where
  ownNodeId : NodeId
  connectionCtxIdent : UInt32
  lid : UInt16
  /-- whether a connection listener is set -/
  listener : Bool
  /-- whether the discovery manager has a listener -/
  discoveryListener : Bool
  connectionStates : NodeId → ConnectionState
  connections : NodeId → Option Connection
  openConnections : UInt16
  availableConnectionIds : List ConnectionId
  flagShutdown : Bool
  discoveryManager : DiscoveryManager
  /-- the queue of the job manager, oldest job first -/
  jobQueue : List Job
  /-- datagrams handed to the exchange manager, with the address they go to -/
  sent : List (UInt32 × ConnectionExchgData)
  calls : List Call

abbrev JobM := EStateM Failure ConnectionManager

namespace ConnectionManager

/-- `m_connectionStates[nodeId]` after `f`. -/
def updateState (m : ConnectionManager) (nodeId : NodeId)
    (f : ConnectionState → ConnectionState) : ConnectionManager :=
  { m with
    connectionStates := Function.update m.connectionStates nodeId (f (m.connectionStates nodeId)) }

/-- `m_connections[nodeId]` set to `c`. -/
def updateConnection (m : ConnectionManager) (nodeId : NodeId) (c : Option Connection) :
    ConnectionManager :=
  { m with connections := Function.update m.connections nodeId c }

/-! ## The jobs -/

def addJob (job : Job) : JobM Unit :=
  modify fun m => { m with jobQueue := m.jobQueue ++ [job] }

def call (c : Call) : JobM Unit :=
  modify fun m => { m with calls := m.calls ++ [c] }

def setConnectionState (nodeId : NodeId) (f : ConnectionState → ConnectionState) : JobM Unit :=
  modify fun m => m.updateState nodeId f

def setConnection (nodeId : NodeId) (c : Option Connection) : JobM Unit :=
  modify fun m => m.updateConnection nodeId c

/-- `__AllocateConnection` -/
def allocateConnection (env : Environment) (remoteNodeId : NodeId) : JobM Bool := do
  let m ← get
  match m.connections remoteNodeId with
  | some _ => return false
  | none =>
    match m.availableConnectionIds.getLast? with
    | none => throw .emptyVector
    | some connectionId =>
      set { m with availableConnectionIds := m.availableConnectionIds.dropLast }
      match env.created with
      | .error e => throw (.thrown e)
      | .ok qp =>
        call (.createConnection remoteNodeId qp)
        setConnection remoteNodeId
          (some { connectionId, ibPhysicalQPId := qp.physicalQPId, ibPsn := qp.psn })
        setConnectionState remoteNodeId fun s => { s with state := .created }
        return true

/-- `__SendConnectionExchgData` -/
def sendConnectionExchgData (remoteNodeId : NodeId) (exchgFlags exchgFlagsRemote : ExchgFlags)
    (remoteNodeIPV4 : UInt32) : JobM Unit := do
  let m ← get
  match m.connections remoteNodeId with
  | none => throw .nullPointer
  | some connection =>
    let header : RemoteConnectionHeader :=
      { nodeId := m.ownNodeId
        exchgFlags
        exchgFlagsRemote
        lid := m.lid
        conManIdent := m.connectionCtxIdent }
    let remote : ConnectionExchgData :=
      { header, data := connection.createConnectionExchangeData }
    set { m with sent := m.sent ++ [(remoteNodeIPV4, remote)] }

/-- The exchange data with the flags as they stand. -/
def sendFlags (remoteNodeId : NodeId) (remoteNodeIPV4 : UInt32) : JobM Unit := do
  let m ← get
  let s := m.connectionStates remoteNodeId
  sendConnectionExchgData remoteNodeId s.exchgFlags s.remoteExchgFlags remoteNodeIPV4

/-- only create connection if not created or in creation -/
def allocateRequested (env : Environment) (targetNodeId : NodeId) : JobM Unit := do
  let m ← get
  if (m.connectionStates targetNodeId).state = .inCreation then
    discard (allocateConnection env targetNodeId)
  else
    pure ()

/-- `__JobDispatchCreateConnection` -/
def jobDispatchCreateConnection (env : Environment) (targetNodeId : NodeId) : JobM Unit := do
  let m ← get
  match m.discoveryManager.getNodeInfo targetNodeId with
  | .error _ => pure ()
  | .ok discoveryRemoteNodeInfo =>
    allocateRequested env targetNodeId
    sendFlags targetNodeId discoveryRemoteNodeInfo.address

/-- connect to remote if we aren't connected, yet -/
def connectToRemote (env : Environment) (remote : ConnectionExchgData) : JobM Unit := do
  let nodeId := remote.header.nodeId
  let m ← get
  if (m.connectionStates nodeId).isConnectedToRemote then
    pure ()
  else
    match m.connections nodeId with
    | none => throw .nullPointer
    | some connection =>
      if remote.size < sizeOfRemoteConnectionData then
        throw (.thrown (.illegalState "Buffer too small"))
      else
        setConnection nodeId (some (connection.connect remote))
        call (.connect nodeId remote)
        match env.connected with
        | .error e => throw (.thrown e)
        | .ok () => setConnectionState nodeId ConnectionState.setConnectedToRemote

/-- apply remote connection state: the remote signals that it is already
connected to our current instance -/
def applyRemoteConnected (remote : ConnectionExchgData) : JobM Unit := do
  let nodeId := remote.header.nodeId
  let m ← get
  if !(m.connectionStates nodeId).isRemoteConnected &&
      ConnectionState.isRemoteConnectedToCurrent remote.header.exchgFlags then
    setConnectionState nodeId ConnectionState.setRemoteConnected
  else
    pure ()

/-- The compare exchange from `e_StateCreated` to `e_StateConnected` succeeded:
kill a zombie connection, or publish the connection. -/
def finishConnection (remote : ConnectionExchgData) : JobM Unit := do
  let nodeId := remote.header.nodeId
  let m ← get
  match m.connections nodeId with
  | none => throw .nullPointer
  | some connection =>
    if connection.getRemoteConnectionManIdent ≠ remote.header.conManIdent then
      addJob (.closeConnection nodeId true false)
      addJob (.createConnection nodeId)
    else
      set { m with openConnections := m.openConnections + 1 }
      setConnectionState nodeId fun s => { s with available := connectionAvailable }
      call (.connectionOpened nodeId)
      if m.listener then call (.nodeConnected nodeId) else pure ()

/-- sanity check -/
def checkCreated (nodeId : NodeId) : JobM Unit := do
  let m ← get
  if (m.connectionStates nodeId).state.val < State.created.val then
    throw (.thrown (.illegalState "Connected not created state, node id 0x%X"))
  else
    pure ()

/-- Finish the connection, or send exchange data to the remote if either we are
not done with the exchange or the remote has outdated states of ours. -/
def finishOrAnswer (remote : ConnectionExchgData) (remoteNodeIPV4 : UInt32) : JobM Unit := do
  let nodeId := remote.header.nodeId
  let m ← get
  let s := m.connectionStates nodeId
  if s.connectionExchgComplete ∧ s.state = .created then
    setConnectionState nodeId fun s => { s with state := .connected }
    finishConnection remote
  else if !s.connectionExchgComplete ∨ s.exchgFlags ≠ remote.header.exchgFlagsRemote then
    sendFlags nodeId remoteNodeIPV4
  else
    pure ()

/-- `__JobDispatchConnectConnection` -/
def jobDispatchConnectConnection (env : Environment) (remote : ConnectionExchgData) :
    JobM Unit := do
  let nodeId := remote.header.nodeId
  let m ← get
  match m.discoveryManager.getNodeInfo nodeId with
  | .error _ => pure ()
  | .ok discoveryRemoteNodeInfo =>
    discard (allocateConnection env nodeId)
    checkCreated nodeId
    setConnectionState nodeId fun s => { s with remoteExchgFlags := remote.header.exchgFlags }
    connectToRemote env remote
    applyRemoteConnected remote
    finishOrAnswer remote discoveryRemoteNodeInfo.address

/-- The wait for the remaining threads of a close job that does not force.
They leave `m_available` at the value the last load reads. -/
def waitReturned (env : Environment) (nodeId : NodeId) (force : Bool) (counter : Int) :
    JobM Unit :=
  if force then
    pure ()
  else if int32 (connectionClosing - counter) = env.loaded then
    setConnectionState nodeId fun s => { s with available := env.loaded }
  else
    throw .yields

/-- `DiscoveryManager::Invalidate` -/
def invalidate (nodeId : NodeId) (shutdown : Bool) : JobM Unit := do
  modify fun m => { m with discoveryManager := m.discoveryManager.invalidate nodeId }
  let m ← get
  if shutdown then pure () else addJob .discover
  if m.discoveryListener then call (.nodeInvalidated nodeId) else pure ()

/-- `__JobDispatchCloseConnection` -/
def jobDispatchCloseConnection (env : Environment) (nodeId : NodeId) (force shutdown : Bool) :
    JobM Unit := do
  let m ← get
  let counter := (m.connectionStates nodeId).available
  setConnectionState nodeId fun s => { s with available := connectionClosing }
  waitReturned env nodeId force counter
  let m ← get
  setConnection nodeId none
  match m.connections nodeId with
  | none => pure ()
  | some connection =>
    call (.close nodeId force)
    setConnectionState nodeId fun s =>
      { s with exchgFlags := 0, remoteExchgFlags := 0, state := .notAvailable }
    modify fun m => { m with
      availableConnectionIds := m.availableConnectionIds ++ [connection.connectionId]
      openConnections := m.openConnections - 1 }
    setConnectionState nodeId fun s => { s with available := connectionNotAvailable }
    invalidate nodeId shutdown
    call (.connectionClosed nodeId)
    if m.listener then call (.nodeDisconnected nodeId) else pure ()

/-- The discovered job of the discovery manager. -/
def jobDispatchDiscovered (targetIPV4 : UInt32) (nodeIdDiscovered : NodeId) : JobM Unit := do
  let m ← get
  match DiscoveryManager.takeEntry targetIPV4 m.discoveryManager.infoToGet with
  | none => throw .nullPointer
  | some none => pure ()
  | some (some (entry, rest)) =>
    let nodeInfo := Function.update m.discoveryManager.nodeInfo nodeIdDiscovered (some entry)
    set { m with discoveryManager := { infoToGet := rest, nodeInfo } }
    if m.discoveryListener then call (.nodeDiscovered nodeIdDiscovered) else pure ()

/-- `__ExecuteDiscovery` -/
def executeDiscovery : JobM Unit := do
  let m ← get
  match m.discoveryManager.executeDiscovery with
  | none => throw .nullPointer
  | some ipv4s => set { m with calls := m.calls ++ ipv4s.map Call.discoveryReq }

/-- `_DispatchJob` of the connection manager and of the discovery manager. -/
def dispatchJob (env : Environment) (job : Job) : JobM Unit := do
  let m ← get
  match job with
  | .createConnection targetNodeId =>
    if m.flagShutdown then pure () else jobDispatchCreateConnection env targetNodeId
  | .connectConnection remote =>
    if m.flagShutdown then pure () else jobDispatchConnectConnection env remote
  | .closeConnection nodeId force shutdown =>
    jobDispatchCloseConnection env nodeId force shutdown
  | .discover => executeDiscovery
  | .discovered targetIPV4 nodeIdDiscovered =>
    jobDispatchDiscovered targetIPV4 nodeIdDiscovered

/-! ## Runs -/

inductive Action
  /-- `GetConnection` asks for a connection to be created -/
  | requestCreation (nodeId : NodeId)
  /-- a `GetConnection` that asked for it times out -/
  | giveUpCreation (nodeId : NodeId)
  /-- any thread adds a job -/
  | addJob (job : Job)
  /-- the job thread runs the oldest job -/
  | runJob (env : Environment)
  /-- the destructor sets the shutdown flag -/
  | shutdown

/-- One step of a manager.  A job that fails ends the process, so it leads to no
further state. -/
def step (m : ConnectionManager) : Action → Option ConnectionManager
  | .requestCreation nodeId => some (m.updateState nodeId ConnectionState.requestCreation)
  | .giveUpCreation nodeId => some (m.updateState nodeId ConnectionState.giveUpCreation)
  | .addJob job => some { m with jobQueue := m.jobQueue ++ [job] }
  | .runJob env =>
    match m.jobQueue with
    | [] => none
    | job :: jobQueue =>
      match (dispatchJob env job).run { m with jobQueue } with
      | .ok _ m' => some m'
      | .error _ _ => none
  | .shutdown => some { m with flagShutdown := true }

/-- What a manager is constructed with. -/
structure Params where
  ownNodeId : NodeId
  connectionCtxIdent : UInt32
  lid : UInt16
  maxNumConnections : UInt16
  listener : Bool
  discoveryListener : Bool
  discoveryManager : DiscoveryManager

/-- The state after the constructor. -/
def new (p : Params) : ConnectionManager :=
  { ownNodeId := p.ownNodeId
    connectionCtxIdent := p.connectionCtxIdent
    lid := p.lid
    listener := p.listener
    discoveryListener := p.discoveryListener
    connectionStates := fun _ => {}
    connections := fun _ => none
    openConnections := 0
    availableConnectionIds := (List.range p.maxNumConnections.toNat).reverse.map UInt16.ofNat
    flagShutdown := false
    discoveryManager := p.discoveryManager
    jobQueue := []
    sent := []
    calls := [] }

end ConnectionManager

end Ibdxnet.Con
