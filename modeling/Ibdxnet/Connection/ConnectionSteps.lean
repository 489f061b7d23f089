import Ibdxnet.Connection.ConnectionManager

/-!
# What the jobs do

All a manager holds about one node is its `Link` to it: the connection state
and the connection.  A job about a node changes the link to that node and no
other one (`setLink`), and one lemma for each function says into what.

    allocateConnection   Link.allocate, unless there is a connection
    connectToRemote, applyRemoteConnected
                         Link.learn
    finishOrAnswer       killed, opened, answered or nothing
    closeConnection      Link.closed
-/

namespace Ibdxnet.Con

open Flags

/-- What a manager holds about one node. -/
@[ext]
structure Link where
  state : ConnectionState
  connection : Option Connection

namespace Link

/-- A new connection with this id and these queue pair data. -/
def allocate (l : Link) (connectionId : ConnectionId) (qp : RemoteConnectionData) : Link where
  state := { l.state with state := .created }
  connection := some { connectionId, ibPhysicalQPId := qp.physicalQPId, ibPsn := qp.psn }

/-- The exchange flags after exchange data of the remote is handled. -/
def learnFlags (f remoteFlags : ExchgFlags) : ExchgFlags :=
  if ConnectionState.isRemoteConnectedToCurrent remoteFlags then
    f ||| exchgFlagConnectedToRemote ||| exchgFlagRemoteConnected
  else
    f ||| exchgFlagConnectedToRemote

/-- The link after exchange data of the remote is handled, but not yet answered. -/
def learn (l : Link) (remote : ConnectionExchgData) : Link where
  state :=
    { l.state with
      exchgFlags := learnFlags l.state.exchgFlags remote.header.exchgFlags
      remoteExchgFlags := remote.header.exchgFlags }
  connection :=
    if l.state.isConnectedToRemote then l.connection
    else l.connection.map fun c => c.connect remote

/-- No connection. -/
def closed (l : Link) : Link where
  state :=
    { l.state with
      state := .notAvailable
      exchgFlags := 0
      remoteExchgFlags := 0
      available := connectionNotAvailable }
  connection := none

theorem learn_connection {l : Link} {c : Connection} (hc : l.connection = some c)
    (remote : ConnectionExchgData) :
    (l.learn remote).connection =
      some (if l.state.isConnectedToRemote then c else c.connect remote) := by
  simp only [learn, hc]
  split <;> rfl

/-! ## The flags learned -/

theorem within_learnFlags (f r : ExchgFlags) : Within f (learnFlags f r) := by
  unfold learnFlags
  split
  · exact (within_or_left f _).trans (within_or_left _ _)
  · exact within_or_left f _

theorem connectedToRemote_within_learnFlags (f r : ExchgFlags) :
    Within exchgFlagConnectedToRemote (learnFlags f r) := by
  unfold learnFlags
  split
  · exact (within_or_right f _).trans (within_or_left _ _)
  · exact within_or_right f _

theorem remoteConnected_within_learnFlags_iff {f r : ExchgFlags} :
    Within exchgFlagRemoteConnected (learnFlags f r) ↔
      Within exchgFlagRemoteConnected f ∨ Within exchgFlagConnectedToRemote r := by
  unfold learnFlags
  rw [← ConnectionState.isRemoteConnectedToCurrent_iff]
  split
  · next hr => simp [hr, within_or_right]
  · next hr => simp [hr, ConnectionState.remoteConnected_within_or_iff]

theorem proper_learnFlags {f : ExchgFlags} (hf : ConnectionState.Proper f) (r : ExchgFlags) :
    ConnectionState.Proper (learnFlags f r) := by
  unfold learnFlags
  have hc := hf.or ConnectionState.proper_connectedToRemote
  split
  · exact hc.or ConnectionState.proper_remoteConnected
  · exact hc

end Link

namespace ConnectionManager

/-! ## The link to one node -/

def link (m : ConnectionManager) (n : NodeId) : Link where
  state := m.connectionStates n
  connection := m.connections n

def setLink (m : ConnectionManager) (n : NodeId) (l : Link) : ConnectionManager :=
  { m with
    connectionStates := Function.update m.connectionStates n l.state
    connections := Function.update m.connections n l.connection }

section
variable (m : ConnectionManager) (n : NodeId) (l : Link)

@[simp] theorem link_state : (m.link n).state = m.connectionStates n := rfl

@[simp] theorem link_connection : (m.link n).connection = m.connections n := rfl

@[simp] theorem setLink_connectionStates_self : (m.setLink n l).connectionStates n = l.state :=
  Function.update_self ..

@[simp] theorem setLink_connections_self : (m.setLink n l).connections n = l.connection :=
  Function.update_self ..

@[simp] theorem link_setLink_self : (m.setLink n l).link n = l := by
  simp [link]

theorem link_setLink_of_ne {k : NodeId} (h : k ≠ n) : (m.setLink n l).link k = m.link k := by
  simp [link, setLink, h]

@[simp] theorem setLink_setLink (l' : Link) : (m.setLink n l).setLink n l' = m.setLink n l' := by
  simp [setLink]

@[simp] theorem setLink_link : m.setLink n (m.link n) = m := by
  simp [setLink]

@[simp] theorem setLink_ownNodeId : (m.setLink n l).ownNodeId = m.ownNodeId := rfl
@[simp] theorem setLink_connectionCtxIdent :
    (m.setLink n l).connectionCtxIdent = m.connectionCtxIdent := rfl
@[simp] theorem setLink_lid : (m.setLink n l).lid = m.lid := rfl
@[simp] theorem setLink_listener : (m.setLink n l).listener = m.listener := rfl
@[simp] theorem setLink_discoveryListener :
    (m.setLink n l).discoveryListener = m.discoveryListener := rfl
@[simp] theorem setLink_openConnections :
    (m.setLink n l).openConnections = m.openConnections := rfl
@[simp] theorem setLink_availableConnectionIds :
    (m.setLink n l).availableConnectionIds = m.availableConnectionIds := rfl
@[simp] theorem setLink_flagShutdown : (m.setLink n l).flagShutdown = m.flagShutdown := rfl
@[simp] theorem setLink_discoveryManager :
    (m.setLink n l).discoveryManager = m.discoveryManager := rfl
@[simp] theorem setLink_jobQueue : (m.setLink n l).jobQueue = m.jobQueue := rfl
@[simp] theorem setLink_sent : (m.setLink n l).sent = m.sent := rfl
@[simp] theorem setLink_calls : (m.setLink n l).calls = m.calls := rfl

theorem updateState_eq (f : ConnectionState → ConnectionState) :
    m.updateState n f = m.setLink n { m.link n with state := f (m.connectionStates n) } := by
  simp [updateState, setLink]

theorem updateConnection_eq (c : Option Connection) :
    m.updateConnection n c = m.setLink n { m.link n with connection := c } := by
  simp [updateConnection, setLink]

end

/-! ## Creating and sending -/

def allocated (m : ConnectionManager) (n : NodeId) (connectionId : ConnectionId)
    (qp : RemoteConnectionData) : ConnectionManager :=
  { m.setLink n ((m.link n).allocate connectionId qp) with
    availableConnectionIds := m.availableConnectionIds.dropLast
    calls := m.calls ++ [.createConnection n qp] }

/-- What `__AllocateConnection` does when it returns. -/
inductive Allocates (env : Environment) (n : NodeId) (m : ConnectionManager) :
    ConnectionManager → Prop
  | kept {c : Connection} (hc : m.connections n = some c) : Allocates env n m m
  | created {connectionId : ConnectionId} {qp : RemoteConnectionData}
      (hc : m.connections n = none) (hid : m.availableConnectionIds.getLast? = some connectionId)
      (hqp : env.created = .ok qp) : Allocates env n m (m.allocated n connectionId qp)

/-- The exchange data about a connection, with the flags as they stand. -/
def exchgData (m : ConnectionManager) (n : NodeId) (c : Connection) : ConnectionExchgData where
  header :=
    { nodeId := m.ownNodeId
      exchgFlags := (m.connectionStates n).exchgFlags
      exchgFlagsRemote := (m.connectionStates n).remoteExchgFlags
      lid := m.lid
      conManIdent := m.connectionCtxIdent }
  data := c.createConnectionExchangeData

def answered (m : ConnectionManager) (n : NodeId) (c : Connection) (ipv4 : UInt32) :
    ConnectionManager :=
  { m with sent := m.sent ++ [(ipv4, m.exchgData n c)] }

section
variable {m m' : ConnectionManager} {env : Environment} {n : NodeId}

@[simp] theorem run_setConnectionState (n : NodeId) (f : ConnectionState → ConnectionState)
    (m : ConnectionManager) :
    (setConnectionState n f).run m =
      .ok () (m.setLink n { m.link n with state := f (m.connectionStates n) }) := by
  rw [← updateState_eq]
  rfl

@[simp] theorem run_setConnection (n : NodeId) (c : Option Connection) (m : ConnectionManager) :
    (setConnection n c).run m = .ok () (m.setLink n { m.link n with connection := c }) := by
  rw [← updateConnection_eq]
  rfl

@[simp] theorem run_addJob (job : Job) (m : ConnectionManager) :
    (addJob job).run m = .ok () { m with jobQueue := m.jobQueue ++ [job] } := rfl

@[simp] theorem run_call (c : Call) (m : ConnectionManager) :
    (call c).run m = .ok () { m with calls := m.calls ++ [c] } := rfl

theorem run_allocateConnection_of_some {c : Connection} (hc : m.connections n = some c) :
    (allocateConnection env n).run m = .ok false m := by
  simp [allocateConnection, hc]

theorem run_allocateConnection_of_created {connectionId : ConnectionId}
    {qp : RemoteConnectionData} (hc : m.connections n = none)
    (hid : m.availableConnectionIds.getLast? = some connectionId) (hqp : env.created = .ok qp) :
    (allocateConnection env n).run m = .ok true (m.allocated n connectionId qp) := by
  simp only [allocateConnection, EStateM.run_bind, EStateM.run_get, hc, hid, hqp, EStateM.run_set,
    run_call, run_setConnection, run_setConnectionState, setLink_setLink, EStateM.run_pure]
  simp [allocated, setLink, Link.allocate, link]

theorem run_allocateConnection {b : Bool}
    (h : (allocateConnection env n).run m = .ok b m') : Allocates env n m m' := by
  cases hc : m.connections n with
  | some c =>
    rw [run_allocateConnection_of_some hc, EStateM.Result.ok.injEq] at h
    exact h.2 ▸ .kept hc
  | none =>
    cases hid : m.availableConnectionIds.getLast? with
    | none => simp [allocateConnection, hc, hid] at h
    | some connectionId =>
      cases hqp : env.created with
      | error e => simp [allocateConnection, hc, hid, hqp] at h
      | ok qp =>
        rw [run_allocateConnection_of_created hc hid hqp, EStateM.Result.ok.injEq] at h
        exact h.2 ▸ .created hc hid hqp

theorem run_sendFlags {c : Connection} (hc : m.connections n = some c) (ipv4 : UInt32) :
    (sendFlags n ipv4).run m = .ok () (m.answered n c ipv4) := by
  simp [sendFlags, sendConnectionExchgData, hc, answered, exchgData]

theorem run_sendFlags_ok {ipv4 : UInt32} (h : (sendFlags n ipv4).run m = .ok () m') :
    ∃ c, m.connections n = some c ∧ m' = m.answered n c ipv4 := by
  cases hc : m.connections n with
  | none => simp [sendFlags, sendConnectionExchgData, hc] at h
  | some c =>
    rw [run_sendFlags hc, EStateM.Result.ok.injEq] at h
    exact ⟨c, rfl, h.2.symm⟩

/-- What a create job does: nothing about a node that is not discovered, else
allocate if this was requested, and send. -/
theorem run_jobDispatchCreateConnection
    (h : (jobDispatchCreateConnection env n).run m = .ok () m') :
    m.discoveryManager.nodeInfo n = none ∧ m' = m ∨
      ∃ entry m₁ c, m.discoveryManager.nodeInfo n = some entry ∧
        (Allocates env n m m₁ ∧ (m.connectionStates n).state = .inCreation ∨ m₁ = m) ∧
        m₁.connections n = some c ∧ m' = m₁.answered n c entry.address := by
  unfold jobDispatchCreateConnection DiscoveryManager.getNodeInfo at h
  simp only [EStateM.run_bind, EStateM.run_get] at h
  cases hinfo : m.discoveryManager.nodeInfo n with
  | none =>
    simp only [hinfo, EStateM.run_pure, EStateM.Result.ok.injEq] at h
    exact Or.inl ⟨rfl, h.2.symm⟩
  | some entry =>
    simp only [hinfo] at h
    obtain ⟨_, m₁, halloc, hsend⟩ := Exec.run_bind_eq_ok.mp h
    obtain ⟨c, hc, rfl⟩ := run_sendFlags_ok hsend
    refine Or.inr ⟨entry, m₁, c, rfl, ?_, hc, rfl⟩
    simp only [allocateRequested, EStateM.run_bind, EStateM.run_get, Exec.run_ite] at halloc
    split at halloc
    · next hrequested =>
      obtain ⟨b, hb⟩ := Exec.run_discard_eq_ok.mp halloc
      exact Or.inl ⟨run_allocateConnection hb, hrequested⟩
    · simp only [EStateM.run_pure, EStateM.Result.ok.injEq] at halloc
      exact Or.inr halloc.2.symm

end

/-! ## Connecting -/

/-- Exchange data of the remote is handled, but not yet answered. -/
def learn (m : ConnectionManager) (remote : ConnectionExchgData) : ConnectionManager :=
  { m.setLink remote.header.nodeId ((m.link remote.header.nodeId).learn remote) with
    calls :=
      if (m.connectionStates remote.header.nodeId).isConnectedToRemote then m.calls
      else m.calls ++ [.connect remote.header.nodeId remote] }

/-- The zombie connection is to be closed and created again. -/
def killed (m : ConnectionManager) (n : NodeId) : ConnectionManager :=
  { m.setLink n { m.link n with state := { m.connectionStates n with state := .connected } } with
    jobQueue := m.jobQueue ++ [.closeConnection n true false, .createConnection n] }

/-- The connection is published. -/
def opened (m : ConnectionManager) (n : NodeId) : ConnectionManager :=
  { m.setLink n { m.link n with
      state :=
        { m.connectionStates n with state := .connected, available := connectionAvailable } } with
    openConnections := m.openConnections + 1
    calls := m.calls ++ .connectionOpened n :: if m.listener then [.nodeConnected n] else [] }

/-- The connection is about to be completed. -/
abbrev Completes (m : ConnectionManager) (n : NodeId) : Prop :=
  (m.connectionStates n).connectionExchgComplete = true ∧ (m.connectionStates n).state = .created

/-- The remote still needs exchange data of ours. -/
abbrev NeedsAnswer (m : ConnectionManager) (remote : ConnectionExchgData) : Prop :=
  (m.connectionStates remote.header.nodeId).connectionExchgComplete = false ∨
    (m.connectionStates remote.header.nodeId).exchgFlags ≠ remote.header.exchgFlagsRemote

/-- The end of a connect job, over the connection `c` to the sender. -/
def finishedOrAnswered (m : ConnectionManager) (remote : ConnectionExchgData) (c : Connection)
    (ipv4 : UInt32) : ConnectionManager :=
  if m.Completes remote.header.nodeId then
    if c.getRemoteConnectionManIdent ≠ remote.header.conManIdent then
      m.killed remote.header.nodeId
    else
      m.opened remote.header.nodeId
  else if m.NeedsAnswer remote then
    m.answered remote.header.nodeId c ipv4
  else
    m

section
variable {m m' : ConnectionManager} {env : Environment} {remote : ConnectionExchgData}

theorem run_finishConnection {c : Connection}
    (hc : m.connections remote.header.nodeId = some c) :
    (do
      setConnectionState remote.header.nodeId fun s => { s with state := .connected }
      finishConnection remote).run m =
      .ok () (if c.getRemoteConnectionManIdent ≠ remote.header.conManIdent then
        m.killed remote.header.nodeId else m.opened remote.header.nodeId) := by
  simp only [finishConnection, EStateM.run_bind, run_setConnectionState, EStateM.run_get,
    setLink_connections_self, link_connection, hc]
  split
  · simp [killed, hc]
  · simp only [EStateM.run_bind, EStateM.run_set, run_setConnectionState, run_call, Exec.run_ite,
      EStateM.run_pure]
    split
    · next hl =>
      rw [setLink_listener] at hl
      simp [opened, setLink, link, hc, hl]
    · next hl =>
      rw [setLink_listener] at hl
      simp [opened, setLink, link, hc, hl]

theorem run_finishOrAnswer {c : Connection} (hc : m.connections remote.header.nodeId = some c)
    (ipv4 : UInt32) :
    (finishOrAnswer remote ipv4).run m = .ok () (m.finishedOrAnswered remote c ipv4) := by
  have hfinish := run_finishConnection hc
  rw [EStateM.run_bind] at hfinish
  simp only [finishOrAnswer, EStateM.run_bind, EStateM.run_get, Exec.run_ite, hfinish,
    run_sendFlags hc, EStateM.run_pure, Bool.not_eq_true']
  unfold finishedOrAnswered
  by_cases hcomp : m.Completes remote.header.nodeId
  · rw [if_pos hcomp, if_pos hcomp]
  · rw [if_neg hcomp, if_neg hcomp]
    by_cases hneeds : m.NeedsAnswer remote
    · rw [if_pos hneeds, if_pos hneeds]
    · rw [if_neg hneeds, if_neg hneeds]

theorem run_applyRemoteConnected (remote : ConnectionExchgData) (m : ConnectionManager) :
    (applyRemoteConnected remote).run m =
      .ok () (m.setLink remote.header.nodeId
        { m.link remote.header.nodeId with
          state :=
            if ConnectionState.isRemoteConnectedToCurrent remote.header.exchgFlags then
              (m.connectionStates remote.header.nodeId).setRemoteConnected
            else m.connectionStates remote.header.nodeId }) := by
  simp only [applyRemoteConnected, EStateM.run_bind, EStateM.run_get, Exec.run_ite,
    run_setConnectionState, EStateM.run_pure, Bool.and_eq_true, Bool.not_eq_true']
  cases hr : ConnectionState.isRemoteConnectedToCurrent remote.header.exchgFlags with
  | false =>
    rw [if_neg (by simp), if_neg (by simp)]
    exact congrArg (EStateM.Result.ok ()) (setLink_link m _).symm
  | true =>
    cases hset : (m.connectionStates remote.header.nodeId).isRemoteConnected with
    | false => simp
    | true =>
      -- the flag is set already: setting it again changes nothing
      have hsame : (m.connectionStates remote.header.nodeId).setRemoteConnected =
          m.connectionStates remote.header.nodeId := by
        unfold ConnectionState.setRemoteConnected ConnectionState.flagConnectionExchgState
        rw [or_eq_of_within (ConnectionState.isRemoteConnected_iff.mp hset)]
      rw [hsame, if_neg (by simp), if_pos rfl]
      exact congrArg (EStateM.Result.ok ()) (setLink_link m _).symm

theorem run_connectToRemote (h : (connectToRemote env remote).run m = .ok () m') :
    (m.connectionStates remote.header.nodeId).isConnectedToRemote = true ∧ m' = m ∨
      (m.connectionStates remote.header.nodeId).isConnectedToRemote = false ∧
        ∃ c, m.connections remote.header.nodeId = some c ∧
          m' = { m.setLink remote.header.nodeId
            { state := (m.connectionStates remote.header.nodeId).setConnectedToRemote
              connection := some (c.connect remote) } with
            calls := m.calls ++ [.connect remote.header.nodeId remote] } := by
  simp only [connectToRemote, EStateM.run_bind, EStateM.run_get, Exec.run_ite] at h
  split at h
  · next hset =>
    simp only [EStateM.run_pure, EStateM.Result.ok.injEq] at h
    exact Or.inl ⟨hset, h.2.symm⟩
  · next hset =>
    refine Or.inr ⟨by simpa using hset, ?_⟩
    cases hc : m.connections remote.header.nodeId with
    | none => simp [hc] at h
    | some c =>
      refine ⟨c, rfl, ?_⟩
      simp only [hc, Exec.run_ite, EStateM.run_bind, run_setConnection, run_call] at h
      split at h
      · simp at h
      · cases hv : env.connected with
        | error e => simp [hv] at h
        | ok u =>
          simp only [hv, run_setConnectionState, EStateM.Result.ok.injEq] at h
          rw [← h.2]
          simp [setLink, link]

theorem run_learn
    (h : (do
      setConnectionState remote.header.nodeId fun s =>
        { s with remoteExchgFlags := remote.header.exchgFlags }
      connectToRemote env remote
      applyRemoteConnected remote).run m = .ok () m') : m' = m.learn remote := by
  obtain ⟨_, m₁, h₁, h⟩ := Exec.run_bind_eq_ok.mp h
  obtain ⟨_, m₂, h₂, h₃⟩ := Exec.run_bind_eq_ok.mp h
  rw [run_setConnectionState, EStateM.Result.ok.injEq] at h₁
  rw [run_applyRemoteConnected, EStateM.Result.ok.injEq] at h₃
  obtain ⟨-, rfl⟩ := h₁
  obtain ⟨-, rfl⟩ := h₃
  rcases run_connectToRemote h₂ with ⟨hset, rfl⟩ | ⟨hset, c, hc, rfl⟩
  · rw [setLink_connectionStates_self] at hset
    replace hset : (m.connectionStates remote.header.nodeId).isConnectedToRemote = true := hset
    have hsame := or_eq_of_within (ConnectionState.isConnectedToRemote_iff.mp hset)
    cases hr : ConnectionState.isRemoteConnectedToCurrent remote.header.exchgFlags <;>
      simp [learn, Link.learn, Link.learnFlags, hset, hr, hsame, setLink,
        ConnectionState.setRemoteConnected, ConnectionState.flagConnectionExchgState]
  · rw [setLink_connectionStates_self] at hset
    replace hset : (m.connectionStates remote.header.nodeId).isConnectedToRemote = false := hset
    rw [setLink_connections_self] at hc
    replace hc : m.connections remote.header.nodeId = some c := hc
    cases hr : ConnectionState.isRemoteConnectedToCurrent remote.header.exchgFlags <;>
      simp [learn, Link.learn, Link.learnFlags, hset, hr, hc, setLink,
        ConnectionState.setRemoteConnected, ConnectionState.setConnectedToRemote,
        ConnectionState.flagConnectionExchgState]

theorem run_checkCreated (h : (checkCreated remote.header.nodeId).run m = .ok () m') :
    State.created.val ≤ (m.connectionStates remote.header.nodeId).state.val ∧ m' = m := by
  simp only [checkCreated, EStateM.run_bind, EStateM.run_get, Exec.run_ite] at h
  split at h
  · simp at h
  · next hcreated =>
    simp only [EStateM.run_pure, EStateM.Result.ok.injEq] at h
    exact ⟨Nat.le_of_not_lt hcreated, h.2.symm⟩

theorem Allocates.exists_connection {n : NodeId} {m₁ : ConnectionManager}
    (h : Allocates env n m m₁) : ∃ c, m₁.connections n = some c := by
  cases h with
  | kept hc => exact ⟨_, hc⟩
  | created => exact ⟨_, setLink_connections_self ..⟩

theorem Allocates.jobQueue {n : NodeId} {m₁ : ConnectionManager} (h : Allocates env n m m₁) :
    m₁.jobQueue = m.jobQueue := by
  cases h with
  | kept => rfl
  | created => rfl

theorem learn_connections_self {c : Connection}
    (hc : m.connections remote.header.nodeId = some c) :
    (m.learn remote).connections remote.header.nodeId =
      some (if (m.connectionStates remote.header.nodeId).isConnectedToRemote then c
        else c.connect remote) := by
  change Function.update _ _ _ _ = _
  rw [Function.update_self]
  exact Link.learn_connection hc remote

/-- What a connect job does: nothing about a node that is not discovered, else
allocate, learn, and finish the connection or answer. -/
theorem run_jobDispatchConnectConnection
    (h : (jobDispatchConnectConnection env remote).run m = .ok () m') :
    m.discoveryManager.nodeInfo remote.header.nodeId = none ∧ m' = m ∨
      ∃ entry m₁ c, m.discoveryManager.nodeInfo remote.header.nodeId = some entry ∧
        Allocates env remote.header.nodeId m m₁ ∧
        State.created.val ≤ (m₁.connectionStates remote.header.nodeId).state.val ∧
        (m₁.learn remote).connections remote.header.nodeId = some c ∧
        m' = (m₁.learn remote).finishedOrAnswered remote c entry.address := by
  unfold jobDispatchConnectConnection DiscoveryManager.getNodeInfo at h
  rw [EStateM.run_bind, EStateM.run_get] at h
  cases hinfo : m.discoveryManager.nodeInfo remote.header.nodeId with
  | none =>
    simp only [hinfo, EStateM.run_pure, EStateM.Result.ok.injEq] at h
    exact Or.inl ⟨rfl, h.2.symm⟩
  | some entry =>
    simp only [hinfo] at h
    obtain ⟨_, m₁, halloc, hrest₁⟩ := Exec.run_bind_eq_ok.mp h
    obtain ⟨b, hb⟩ := Exec.run_discard_eq_ok.mp halloc
    obtain ⟨_, m₂, hcheck, hrest₂⟩ := Exec.run_bind_eq_ok.mp hrest₁
    obtain ⟨hcreated, hm₂⟩ := run_checkCreated hcheck
    rw [hm₂] at hrest₂
    obtain ⟨_, m₃, h₃, hrest₃⟩ := Exec.run_bind_eq_ok.mp hrest₂
    obtain ⟨_, m₄, h₄, hrest₄⟩ := Exec.run_bind_eq_ok.mp hrest₃
    obtain ⟨_, m₅, h₅, hrest₅⟩ := Exec.run_bind_eq_ok.mp hrest₄
    have hlearn : m₅ = m₁.learn remote :=
      run_learn (Exec.run_bind_eq_ok.mpr ⟨_, _, h₃, Exec.run_bind_eq_ok.mpr ⟨_, _, h₄, h₅⟩⟩)
    have hallocates := run_allocateConnection hb
    obtain ⟨c, hc⟩ := hallocates.exists_connection
    rw [hlearn, run_finishOrAnswer (learn_connections_self hc), EStateM.Result.ok.injEq] at hrest₅
    exact Or.inr ⟨entry, m₁, _, rfl, hallocates, hcreated, learn_connections_self hc,
      hrest₅.2.symm⟩

/-- A connect job over a connection that is connected to the remote never fails. -/
theorem run_jobDispatchConnectConnection_of_connected (env : Environment) {entry : Entry}
    {c : Connection}
    (hinfo : m.discoveryManager.nodeInfo remote.header.nodeId = some entry)
    (hc : m.connections remote.header.nodeId = some c)
    (hcreated : State.created.val ≤ (m.connectionStates remote.header.nodeId).state.val)
    (hset : (m.connectionStates remote.header.nodeId).isConnectedToRemote = true) :
    (jobDispatchConnectConnection env remote).run m =
      .ok () ((m.learn remote).finishedOrAnswered remote c entry.address) := by
  unfold jobDispatchConnectConnection DiscoveryManager.getNodeInfo
  rw [EStateM.run_bind, EStateM.run_get]
  simp only [hinfo]
  refine Exec.run_bind_eq_ok.mpr
    ⟨(), m, Exec.run_discard_eq_ok.mpr ⟨false, run_allocateConnection_of_some hc⟩, ?_⟩
  refine Exec.run_bind_eq_ok.mpr ⟨(), m, ?_, ?_⟩
  · simp [checkCreated, Nat.not_lt.mpr hcreated]
  have hflags := run_setConnectionState remote.header.nodeId
    (fun s => { s with remoteExchgFlags := remote.header.exchgFlags }) m
  refine Exec.run_bind_eq_ok.mpr ⟨(), _, hflags, ?_⟩
  generalize hm₁ : m.setLink remote.header.nodeId _ = m₁ at hflags ⊢
  have hset₁ : (m₁.connectionStates remote.header.nodeId).isConnectedToRemote = true := by
    rw [← hm₁, setLink_connectionStates_self]
    exact hset
  have hconnect : (connectToRemote env remote).run m₁ = .ok () m₁ := by
    simp [connectToRemote, hset₁]
  refine Exec.run_bind_eq_ok.mpr ⟨(), m₁, hconnect, ?_⟩
  have happly := run_applyRemoteConnected remote m₁
  have hlearn := run_learn (Exec.run_bind_eq_ok.mpr
    ⟨_, _, hflags, Exec.run_bind_eq_ok.mpr ⟨_, _, hconnect, happly⟩⟩)
  rw [hlearn] at happly
  refine Exec.run_bind_eq_ok.mpr ⟨(), _, happly, ?_⟩
  have hc' := learn_connections_self hc
  rw [if_pos hset] at hc'
  exact run_finishOrAnswer hc' _

end

/-! ## Closing -/

def closed (m : ConnectionManager) (n : NodeId) (c : Connection) (force shutdown : Bool) :
    ConnectionManager :=
  { m.setLink n (m.link n).closed with
    availableConnectionIds := m.availableConnectionIds ++ [c.connectionId]
    openConnections := m.openConnections - 1
    discoveryManager := m.discoveryManager.invalidate n
    jobQueue := if shutdown then m.jobQueue else m.jobQueue ++ [.discover]
    calls :=
      m.calls ++ .close n force :: (if m.discoveryListener then [Call.nodeInvalidated n] else []) ++
        .connectionClosed n :: if m.listener then [.nodeDisconnected n] else [] }

section
variable {m m' : ConnectionManager} {env : Environment} {n : NodeId}

theorem run_invalidate (shutdown : Bool) (m : ConnectionManager) :
    (invalidate n shutdown).run m = .ok ()
      { m with
        discoveryManager := m.discoveryManager.invalidate n
        jobQueue := if shutdown then m.jobQueue else m.jobQueue ++ [.discover]
        calls := m.calls ++ if m.discoveryListener then [.nodeInvalidated n] else [] } := by
  simp only [invalidate, EStateM.run_bind, EStateM.run_modify, EStateM.run_get, Exec.run_ite]
  cases shutdown <;> cases m.discoveryListener <;> simp

theorem run_waitReturned {force : Bool} {counter : Int}
    (h : (waitReturned env n force counter).run m = .ok () m') :
    m' = m.updateState n fun s =>
      { s with available := if force then s.available else env.loaded } := by
  rw [updateState_eq]
  cases force with
  | true =>
    simp only [waitReturned, if_true, EStateM.run_pure, EStateM.Result.ok.injEq] at h
    rw [← h.2]
    exact (setLink_link m n).symm
  | false =>
    simp only [waitReturned, Bool.false_eq_true, if_false, Exec.run_ite, run_setConnectionState,
      Exec.run_throw] at h
    split at h
    · exact ((EStateM.Result.ok.injEq ..).mp h).2.symm
    · cases h

/-- What a close job does that ends: the connection is closed, or there was none. -/
theorem run_jobDispatchCloseConnection {force shutdown : Bool}
    (h : (jobDispatchCloseConnection env n force shutdown).run m = .ok () m') :
    (∃ c, m.connections n = some c ∧ m' = m.closed n c force shutdown) ∨
      m.connections n = none ∧
        m' = m.updateState n fun s =>
          { s with available := if force then connectionClosing else env.loaded } := by
  unfold jobDispatchCloseConnection at h
  rw [EStateM.run_bind, EStateM.run_get] at h
  obtain ⟨_, m₁, h₁, hrest⟩ := Exec.run_bind_eq_ok.mp h
  rw [run_setConnectionState, EStateM.Result.ok.injEq] at h₁
  obtain ⟨_, m₂, h₂, hclose⟩ := Exec.run_bind_eq_ok.mp hrest
  have hm₂ : m₂ = m.setLink n { m.link n with
      state := { m.connectionStates n with
        available := if force then connectionClosing else env.loaded } } := by
    rw [run_waitReturned h₂, ← h₁.2, updateState_eq]
    simp
  rw [EStateM.run_bind, EStateM.run_get] at hclose
  obtain ⟨_, m₃, h₃, hclose⟩ := Exec.run_bind_eq_ok.mp hclose
  rw [run_setConnection, EStateM.Result.ok.injEq] at h₃
  have hm₃ : m₃ = m.setLink n
      { state := { m.connectionStates n with
          available := if force then connectionClosing else env.loaded }
        connection := none } := by
    rw [← h₃.2, hm₂]
    simp
  have hc₂ : m₂.connections n = m.connections n := by
    rw [hm₂, setLink_connections_self]
    rfl
  cases hc : m.connections n with
  | none =>
    refine Or.inr ⟨rfl, ?_⟩
    simp only [hc₂, hc, EStateM.run_pure, EStateM.Result.ok.injEq] at hclose
    rw [← hclose.2, hm₃, updateState_eq]
    simp [link, hc]
  | some c =>
    refine Or.inl ⟨c, rfl, ?_⟩
    simp only [hc₂, hc, hm₃, EStateM.run_bind, run_call, run_setConnectionState,
      EStateM.run_modify, run_invalidate, Exec.run_ite] at hclose
    split at hclose
    · next hl =>
      rw [hm₂, setLink_listener] at hl
      rw [EStateM.Result.ok.injEq] at hclose
      rw [← hclose.2]
      simp [closed, setLink, link, Link.closed, hl]
    · next hl =>
      rw [hm₂, setLink_listener] at hl
      rw [EStateM.run_pure, EStateM.Result.ok.injEq] at hclose
      rw [← hclose.2]
      simp [closed, setLink, link, Link.closed, hl]

/-- A close job that forces never fails. -/
theorem run_jobDispatchCloseConnection_force (env : Environment) (n : NodeId) (shutdown : Bool)
    (m : ConnectionManager) :
    ∃ m', (jobDispatchCloseConnection env n true shutdown).run m = .ok () m' := by
  unfold jobDispatchCloseConnection
  simp only [EStateM.run_bind, EStateM.run_get, run_setConnectionState, waitReturned, if_true,
    EStateM.run_pure, run_setConnection, setLink_connections_self, link_connection]
  cases hc : m.connections n with
  | none => exact ⟨_, rfl⟩
  | some c =>
    simp only [EStateM.run_bind, run_call, run_setConnectionState, EStateM.run_modify,
      run_invalidate, Exec.run_ite, EStateM.run_pure]
    split <;> exact ⟨_, rfl⟩

end

/-! ## One step -/

/-- What the job thread does with one job, when the job ends. -/
inductive Dispatched (env : Environment) (m : ConnectionManager) :
    Job → ConnectionManager → Prop
  /-- shutting down, or not discovered -/
  | createDropped {n : NodeId}
      (hdrop : m.flagShutdown = true ∨ m.discoveryManager.nodeInfo n = none) :
      Dispatched env m (.createConnection n) m
  | create {n : NodeId} {entry : Entry} {m₁ : ConnectionManager} {c : Connection}
      (hshutdown : m.flagShutdown = false)
      (hinfo : m.discoveryManager.nodeInfo n = some entry)
      (halloc : Allocates env n m m₁ ∧ (m.connectionStates n).state = .inCreation ∨ m₁ = m)
      (hc : m₁.connections n = some c) :
      Dispatched env m (.createConnection n) (m₁.answered n c entry.address)
  | connectDropped {remote : ConnectionExchgData}
      (hdrop : m.flagShutdown = true ∨ m.discoveryManager.nodeInfo remote.header.nodeId = none) :
      Dispatched env m (.connectConnection remote) m
  | connect {remote : ConnectionExchgData} {entry : Entry} {m₁ : ConnectionManager}
      {c : Connection} (hshutdown : m.flagShutdown = false)
      (hinfo : m.discoveryManager.nodeInfo remote.header.nodeId = some entry)
      (halloc : Allocates env remote.header.nodeId m m₁)
      (hcreated : State.created.val ≤ (m₁.connectionStates remote.header.nodeId).state.val)
      (hc : (m₁.learn remote).connections remote.header.nodeId = some c) :
      Dispatched env m (.connectConnection remote)
        ((m₁.learn remote).finishedOrAnswered remote c entry.address)
  | close {n : NodeId} {force shutdown : Bool} {c : Connection} (hc : m.connections n = some c) :
      Dispatched env m (.closeConnection n force shutdown) (m.closed n c force shutdown)
  | closeAgain {n : NodeId} {force shutdown : Bool} (hc : m.connections n = none) :
      Dispatched env m (.closeConnection n force shutdown) (m.updateState n fun s =>
        { s with available := if force then connectionClosing else env.loaded })
  | discover {ipv4s : List UInt32} (hipv4s : m.discoveryManager.executeDiscovery = some ipv4s) :
      Dispatched env m .discover { m with calls := m.calls ++ ipv4s.map Call.discoveryReq }
  | discoveredUnknown {ipv4 : UInt32} {n : NodeId}
      (htake : DiscoveryManager.takeEntry ipv4 m.discoveryManager.infoToGet = some none) :
      Dispatched env m (.discovered ipv4 n) m
  | discovered {ipv4 : UInt32} {n : NodeId} {entry : Entry} {rest : List (Option Entry)}
      (htake : DiscoveryManager.takeEntry ipv4 m.discoveryManager.infoToGet =
        some (some (entry, rest))) :
      Dispatched env m (.discovered ipv4 n) { m with
        discoveryManager :=
          { infoToGet := rest
            nodeInfo := Function.update m.discoveryManager.nodeInfo n (some entry) }
        calls := m.calls ++ if m.discoveryListener then [.nodeDiscovered n] else [] }

/-- A job takes none off the queue, and adds none that closes a connection for the
shutdown. -/
theorem Dispatched.exists_jobQueue {m m' : ConnectionManager} {env : Environment} {job : Job}
    (hd : Dispatched env m job m') :
    ∃ jobs, m'.jobQueue = m.jobQueue ++ jobs ∧
      ∀ j ∈ jobs, ∀ n force, j ≠ .closeConnection n force true := by
  cases hd with
  | createDropped | connectDropped | discoveredUnknown | discover | discovered =>
    exact ⟨[], (List.append_nil _).symm, by simp⟩
  | create hshutdown hinfo halloc hc =>
    refine ⟨[], ?_, by simp⟩
    rcases halloc with ⟨halloc, -⟩ | rfl
    · exact halloc.jobQueue.trans (List.append_nil _).symm
    · exact (List.append_nil _).symm
  | @connect remote entry m₁ c hshutdown hinfo halloc hcreated hc =>
    rw [← halloc.jobQueue]
    unfold finishedOrAnswered
    split
    · split
      · exact ⟨_, rfl, by simp⟩
      · exact ⟨[], (List.append_nil _).symm, by simp⟩
    · split
      · exact ⟨[], (List.append_nil _).symm, by simp⟩
      · exact ⟨[], (List.append_nil _).symm, by simp⟩
  | @close n force shutdown c hc =>
    cases shutdown with
    | true => exact ⟨[], (List.append_nil _).symm, by simp⟩
    | false => exact ⟨[.discover], rfl, by simp⟩
  | closeAgain hc => exact ⟨[], (List.append_nil _).symm, by simp⟩

theorem run_dispatchJob {m m' : ConnectionManager} {env : Environment} {job : Job}
    (h : (dispatchJob env job).run m = .ok () m') : Dispatched env m job m' := by
  unfold dispatchJob at h
  rw [EStateM.run_bind, EStateM.run_get] at h
  cases job with
  | createConnection n =>
    cases hshutdown : m.flagShutdown with
    | true =>
      simp only [hshutdown, if_true, EStateM.run_pure, EStateM.Result.ok.injEq] at h
      exact h.2 ▸ .createDropped (Or.inl hshutdown)
    | false =>
      simp only [hshutdown, Bool.false_eq_true, if_false] at h
      obtain ⟨hinfo, rfl⟩ | ⟨entry, m₁, c, hinfo, halloc, hc, rfl⟩ :=
        run_jobDispatchCreateConnection h
      · exact .createDropped (Or.inr hinfo)
      · exact .create hshutdown hinfo halloc hc
  | connectConnection remote =>
    cases hshutdown : m.flagShutdown with
    | true =>
      simp only [hshutdown, if_true, EStateM.run_pure, EStateM.Result.ok.injEq] at h
      exact h.2 ▸ .connectDropped (Or.inl hshutdown)
    | false =>
      simp only [hshutdown, Bool.false_eq_true, if_false] at h
      obtain ⟨hinfo, rfl⟩ | ⟨entry, m₁, c, hinfo, halloc, hcreated, hc, rfl⟩ :=
        run_jobDispatchConnectConnection h
      · exact .connectDropped (Or.inr hinfo)
      · exact .connect hshutdown hinfo halloc hcreated hc
  | closeConnection n force shutdown =>
    obtain ⟨c, hc, rfl⟩ | ⟨hc, rfl⟩ := run_jobDispatchCloseConnection h
    · exact .close hc
    · exact .closeAgain hc
  | discover =>
    simp only [executeDiscovery, EStateM.run_bind, EStateM.run_get] at h
    cases hipv4s : m.discoveryManager.executeDiscovery with
    | none => simp [hipv4s] at h
    | some ipv4s =>
      simp only [hipv4s, EStateM.run_set, EStateM.Result.ok.injEq] at h
      exact h.2 ▸ .discover hipv4s
  | discovered ipv4 n =>
    simp only [jobDispatchDiscovered, EStateM.run_bind, EStateM.run_get] at h
    cases htake : DiscoveryManager.takeEntry ipv4 m.discoveryManager.infoToGet with
    | none => simp [htake] at h
    | some found =>
      cases found with
      | none =>
        simp only [htake, EStateM.run_pure, EStateM.Result.ok.injEq] at h
        exact h.2 ▸ .discoveredUnknown htake
      | some found =>
        simp only [htake, EStateM.run_bind, EStateM.run_set, Exec.run_ite, run_call,
          EStateM.run_pure] at h
        have hm' := h.symm
        cases hl : m.discoveryListener <;>
          simp only [hl, Bool.false_eq_true, if_true, if_false, EStateM.Result.ok.injEq] at hm' <;>
          rw [hm'.2]
        · have hd : Dispatched env m (.discovered ipv4 n) _ := .discovered htake
          simpa [hl] using hd
        · have hd : Dispatched env m (.discovered ipv4 n) _ := .discovered htake
          simpa [hl] using hd

theorem run_dispatchJob_connect {m : ConnectionManager} (env : Environment)
    (remote : ConnectionExchgData) (hshutdown : m.flagShutdown = false) :
    (dispatchJob env (.connectConnection remote)).run m =
      (jobDispatchConnectConnection env remote).run m := by
  simp [dispatchJob, hshutdown]

theorem step_runJob_of_run {m m' : ConnectionManager} {env : Environment} {job : Job}
    {jobQueue : List Job} (hq : m.jobQueue = job :: jobQueue)
    (hrun : (dispatchJob env job).run { m with jobQueue } = .ok () m') :
    step m (.runJob env) = some m' := by
  simp only [step, hq, hrun]

theorem step_runJob {m m' : ConnectionManager} {env : Environment}
    (h : step m (.runJob env) = some m') :
    ∃ job jobQueue, m.jobQueue = job :: jobQueue ∧
      Dispatched env { m with jobQueue } job m' := by
  unfold step at h
  cases hq : m.jobQueue with
  | nil => simp [hq] at h
  | cons job jobQueue =>
    simp only [hq] at h
    refine ⟨job, jobQueue, rfl, ?_⟩
    cases hrun : (dispatchJob env job).run { m with jobQueue } with
    | ok u m₁ =>
      simp only [hrun, Option.some.injEq] at h
      exact h ▸ run_dispatchJob hrun
    | error e m₁ => simp [hrun] at h

end ConnectionManager

end Ibdxnet.Con
