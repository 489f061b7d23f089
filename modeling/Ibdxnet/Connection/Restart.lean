import Ibdxnet.Connection.LinkInvariant

/-!
# Restart detection

A remote whose connection manager ident differs from the one its connection was
made with was restarted, and the connection is of no use any more.  The ident
is compared in one place only, after the exchange from `e_StateCreated` to
`e_StateConnected`.  So a packet of the restarted remote gets the old
connection closed exactly when it completes that connection:

    handling the packet dooms the connection  ↔
      a close job is queued already, or the job is not dropped (no shutdown, the
      node is discovered), m_state = Created and m_exchgFlags of the packet is
      Completed                                          (restart_detected_iff)

A connection that is connected stays in use (`restart_unnoticed`).
-/

namespace Ibdxnet.Con

open Flags

namespace ConnectionManager

/-- A close job for `n` is queued. -/
def CloseQueued (m : ConnectionManager) (n : NodeId) : Prop :=
  ∃ force shutdown, Job.closeConnection n force shutdown ∈ m.jobQueue

/-- The connection to `n` is about to be closed: a close job is queued, and
whenever a close job has run, in whatever comes next, there is no connection to
`n` left, and none that was there is available. -/
def Doomed (m : ConnectionManager) (n : NodeId) : Prop :=
  m.CloseQueued n ∧
    ∀ as m₁ env force shutdown jobQueue m₂, Lts.exec step m as = some m₁ →
      m₁.jobQueue = .closeConnection n force shutdown :: jobQueue →
      step m₁ (.runJob env) = some m₂ →
      m₂.connections n = none ∧
        (m₁.connections n ≠ none → (m₂.connectionStates n).isAvailable = false)

variable {m m' : ConnectionManager} {env : Environment} {remote : ConnectionExchgData}

theorem closed_link (m : ConnectionManager) (n : NodeId) (c : Connection) (force shutdown : Bool) :
    (m.closed n c force shutdown).link n = (m.link n).closed :=
  link_setLink_self ..

/-- After a close job there is no connection. -/
theorem Dispatched.connections_of_close {n : NodeId} {force shutdown : Bool}
    (hd : Dispatched env m (.closeConnection n force shutdown) m') :
    m'.connections n = none ∧
      (m.connections n ≠ none → (m'.connectionStates n).isAvailable = false) := by
  cases hd with
  | @close _ _ _ c hc =>
    have hlink := closed_link m n c force shutdown
    refine ⟨congrArg Link.connection hlink, fun _ => ?_⟩
    have hstate := congrArg Link.state hlink
    simp only [link_state] at hstate
    rw [hstate]
    rfl
  | closeAgain hc =>
    exact ⟨hc, fun hne => absurd hc hne⟩

/-- A queued close job dooms the connection. -/
theorem doomed_iff {n : NodeId} : m.Doomed n ↔ m.CloseQueued n := by
  refine ⟨And.left, fun h => ⟨h, ?_⟩⟩
  intro as m₁ env force shutdown jobQueue m₂ _ hq hstep
  obtain ⟨job, jobs, hq', hd⟩ := step_runJob hstep
  rw [hq, List.cons.injEq] at hq'
  obtain ⟨rfl, rfl⟩ := hq'
  exact hd.connections_of_close

/-- Handling exchange data completes a connection exactly when it is not
completed yet and the remote is. -/
theorem completes_learn_iff (h : (m.link remote.header.nodeId).Holds) :
    (m.learn remote).Completes remote.header.nodeId ↔
      (m.connectionStates remote.header.nodeId).state = .created ∧
        remote.header.exchgFlags = exchgFlagCompleted := by
  have hlearn : (m.learn remote).connectionStates remote.header.nodeId =
      ((m.link remote.header.nodeId).learn remote).state :=
    congrArg Link.state (link_setLink_self m remote.header.nodeId _)
  rw [Completes, hlearn, ConnectionState.connectionExchgComplete_iff, and_comm]
  refine and_congr_right fun _ => ⟨And.right, fun hflags => ⟨?_, hflags⟩⟩
  -- the flags learned: connected already, and the remote is connected to us
  have hproper := Link.proper_learnFlags h.proper remote.header.exchgFlags
  change Link.learnFlags (m.link remote.header.nodeId).state.exchgFlags _ = _
  rw [ConnectionState.Proper.eq_completed_iff hproper, ConnectionState.completed_within_iff]
  refine ⟨Link.connectedToRemote_within_learnFlags _ _, ?_⟩
  rw [Link.remoteConnected_within_learnFlags_iff, hflags]
  exact Or.inr ConnectionState.proper_connectedToRemote

/-- What handling exchange data over a connected connection adds to the queue. -/
theorem jobQueue_finishedOrAnswered {c : Connection} (ipv4 : UInt32) :
    (m.finishedOrAnswered remote c ipv4).jobQueue =
      if m.Completes remote.header.nodeId ∧
          c.getRemoteConnectionManIdent ≠ remote.header.conManIdent then
        m.jobQueue ++
          [.closeConnection remote.header.nodeId true false, .createConnection remote.header.nodeId]
      else m.jobQueue := by
  unfold finishedOrAnswered
  by_cases hcomp : m.Completes remote.header.nodeId
  · by_cases hident : c.getRemoteConnectionManIdent ≠ remote.header.conManIdent
    · rw [if_pos hcomp, if_pos hident, if_pos ⟨hcomp, hident⟩]
      rfl
    · rw [if_pos hcomp, if_neg hident, if_neg fun h => hident h.2]
      rfl
  · rw [if_neg hcomp, if_neg (not_and_of_not_left _ hcomp)]
    split <;> rfl

/-- The exchange data gets the connection it is about closed. -/
structure Detected (m : ConnectionManager) (remote : ConnectionExchgData) : Prop where
  running : m.flagShutdown = false
  discovered : m.discoveryManager.nodeInfo remote.header.nodeId ≠ none
  created : (m.connectionStates remote.header.nodeId).state = .created
  completed : remote.header.exchgFlags = exchgFlagCompleted

/-- The connect job about a connection that was made with another ident. -/
theorem step_connect_other_ident (env : Environment) {c : Connection} {jobQueue : List Job}
    (h : m.Holds) (hc : m.connections remote.header.nodeId = some c)
    (hset : (m.connectionStates remote.header.nodeId).isConnectedToRemote = true)
    (hident : remote.header.conManIdent ≠ c.getRemoteConnectionManIdent)
    (hq : m.jobQueue = .connectConnection remote :: jobQueue) :
    ∃ m', step m (.runJob env) = some m' ∧
      (m.Detected remote ∧ m'.jobQueue = jobQueue ++
          [.closeConnection remote.header.nodeId true false,
            .createConnection remote.header.nodeId] ∨
        ¬ m.Detected remote ∧ m'.jobQueue = jobQueue) := by
  by_cases hshutdown : m.flagShutdown = true
  · refine ⟨{ m with jobQueue }, ?_, Or.inr ⟨fun hdet => ?_, rfl⟩⟩
    · simp [step, hq, dispatchJob, hshutdown]
    · exact Bool.noConfusion (hshutdown.symm.trans hdet.running)
  · rw [Bool.not_eq_true] at hshutdown
    cases hinfo : m.discoveryManager.nodeInfo remote.header.nodeId with
    | none =>
      refine ⟨{ m with jobQueue }, ?_, Or.inr ⟨fun hdet => hdet.discovered hinfo, rfl⟩⟩
      simp [step, hq, dispatchJob, hshutdown, jobDispatchConnectConnection,
        DiscoveryManager.getNodeInfo, hinfo]
    | some entry =>
      have hcreated : State.created.val ≤ (m.connectionStates remote.header.nodeId).state.val :=
        (h _).allocated.mp (by simp [hc])
      have hrun := run_jobDispatchConnectConnection_of_connected (m := { m with jobQueue }) env
        hinfo hc hcreated hset
      have hdispatch := run_dispatchJob_connect (m := { m with jobQueue }) env remote hshutdown
      refine ⟨_, step_runJob_of_run hq (hdispatch.trans hrun), ?_⟩
      have hcomp : (learn { m with jobQueue } remote).Completes remote.header.nodeId ↔ _ :=
        completes_learn_iff (h remote.header.nodeId)
      rw [jobQueue_finishedOrAnswered]
      by_cases hdet : (m.connectionStates remote.header.nodeId).state = .created ∧
          remote.header.exchgFlags = exchgFlagCompleted
      · left
        refine ⟨⟨hshutdown, by simp [hinfo], hdet.1, hdet.2⟩, ?_⟩
        rw [if_pos ⟨hcomp.mpr hdet, hident.symm⟩]
        rfl
      · right
        refine ⟨fun h' => hdet ⟨h'.created, h'.completed⟩, ?_⟩
        rw [if_neg fun h' => hdet (hcomp.mp h'.1)]
        rfl

/-- **Restart detection.**  Exchange data whose ident is not the one the
connection was made with dooms that connection exactly when a close job is
queued anyway, or the data completes the connection. -/
theorem restart_detected_iff (env : Environment) {p : Params} {c : Connection} {jobQueue : List Job}
    (hm : Lts.Reachable step (new p) m)
    (hc : m.connections remote.header.nodeId = some c)
    (hset : (m.connectionStates remote.header.nodeId).isConnectedToRemote = true)
    (hident : remote.header.conManIdent ≠ c.getRemoteConnectionManIdent)
    (hq : m.jobQueue = .connectConnection remote :: jobQueue) :
    (∃ m', step m (.runJob env) = some m' ∧ m'.Doomed remote.header.nodeId) ↔
      m.CloseQueued remote.header.nodeId ∨ m.Detected remote := by
  obtain ⟨m', hstep, hm'⟩ := step_connect_other_ident env (holds hm) hc hset hident hq
  have hiff : (∃ m', step m (.runJob env) = some m' ∧ m'.Doomed remote.header.nodeId) ↔
      m'.CloseQueued remote.header.nodeId := by
    simp only [hstep, Option.some.injEq, exists_eq_left', doomed_iff]
  rw [hiff]
  unfold CloseQueued
  rw [hq]
  rcases hm' with ⟨hdet, hm'⟩ | ⟨hdet, hm'⟩
  · simp [hm', hdet]
  · simp [hm', hdet]

/-! ## A restarted remote -/

/-- A manager with one node to discover. -/
def exampleParams : Params where
  ownNodeId := 1
  connectionCtxIdent := 0x11
  lid := 1
  maxNumConnections := 4
  listener := true
  discoveryListener := false
  discoveryManager := { infoToGet := [some { hostname := "node2", address := 0x0A000002 }] }

/-- Exchange data of node 2, from the process with this ident. -/
def exampleRemote (exchgFlags exchgFlagsRemote : ExchgFlags) (conManIdent : UInt32) :
    ConnectionExchgData where
  header := { nodeId := 2, exchgFlags, exchgFlagsRemote, lid := 2, conManIdent }
  data := { physicalQPId := conManIdent, psn := 7 }

/-- Node 2 is discovered and its connection created; then it answers. -/
def exampleCreation : List Action :=
  [.addJob (.discovered 0x0A000002 2), .runJob {}, .requestCreation 2,
    .addJob (.createConnection 2), .runJob {},
    .addJob (.connectConnection (exampleRemote 1 0 0x22)), .runJob {}]

/-- The end of the creation, complete or not, when exchange data of the
restarted node 2 comes in. -/
def exampleRestart (remotes : List ConnectionExchgData) (restarted : ConnectionExchgData) :
    List Action :=
  exampleCreation ++
    (remotes.flatMap fun remote => [.addJob (.connectConnection remote), .runJob {}]) ++
    [.addJob (.connectConnection restarted)]

/-- The connection of node 1 to the process of node 2 that was restarted. -/
def exampleConnection : Connection where
  connectionId := 0
  ibPhysicalQPId := 0
  ibPsn := 0
  remoteConnectionHeader := (exampleRemote 1 0 0x22).header
  remoteConnectionData := (exampleRemote 1 0 0x22).data

/-- The connection is complete; node 2 is restarted and starts a new exchange.
No close job is queued, and the old connection stays available. -/
theorem restart_unnoticed :
    ∃ m m', Lts.exec step (new exampleParams)
        (exampleRestart [exampleRemote 3 1 0x22] (exampleRemote 0 0 0x33)) = some m ∧
      m.jobQueue = [.connectConnection (exampleRemote 0 0 0x33)] ∧
      m.connections 2 = some exampleConnection ∧
      (m.connectionStates 2).isConnectedToRemote = true ∧
      (exampleRemote 0 0 0x33).header.conManIdent ≠
        exampleConnection.getRemoteConnectionManIdent ∧
      step m (.runJob {}) = some m' ∧ ¬ m'.Doomed 2 ∧
      m'.connections 2 = some exampleConnection ∧
      (m'.connectionStates 2).isAvailable = true := by
  have hbefore : (Lts.exec step (new exampleParams)
      (exampleRestart [exampleRemote 3 1 0x22] (exampleRemote 0 0 0x33))).map
        (fun m => (m.jobQueue, m.connections 2, (m.connectionStates 2).isConnectedToRemote)) =
      some ([.connectConnection (exampleRemote 0 0 0x33)], some exampleConnection, true) := by
    decide +kernel
  have hafter : (Lts.exec step (new exampleParams)
      (exampleRestart [exampleRemote 3 1 0x22] (exampleRemote 0 0 0x33) ++ [.runJob {}])).map
        (fun m => (m.jobQueue, m.connections 2, (m.connectionStates 2).isAvailable)) =
      some ([], some exampleConnection, true) := by
    decide +kernel
  obtain ⟨m', hm', h'⟩ := Option.map_eq_some_iff.mp hafter
  obtain ⟨m, hm, hstep⟩ := Lts.exec_concat_eq_some.mp hm'
  rw [hm, Option.map_some, Option.some.injEq, Prod.mk.injEq, Prod.mk.injEq] at hbefore
  rw [Prod.mk.injEq, Prod.mk.injEq] at h'
  obtain ⟨hq, hc, hset⟩ := hbefore
  obtain ⟨hq', hc', havail⟩ := h'
  refine ⟨m, m', hm, hq, hc, hset, by decide, hstep, ?_, hc', havail⟩
  rw [doomed_iff, CloseQueued, hq']
  simp

/-- A connection that is not complete yet when node 2 is restarted is detected. -/
theorem restart_detected_created :
    ∃ m m', Lts.exec step (new exampleParams)
        (exampleRestart [] (exampleRemote 3 1 0x33)) = some m ∧
      step m (.runJob {}) = some m' ∧ m'.Doomed 2 := by
  have hrun : (Lts.exec step (new exampleParams)
      (exampleRestart [] (exampleRemote 3 1 0x33))).map
        (fun m => (m.jobQueue, m.connections 2, m.connectionStates 2, m.flagShutdown,
          m.discoveryManager.nodeInfo 2)) =
      some ([.connectConnection (exampleRemote 3 1 0x33)], some exampleConnection,
        { state := .created, exchgFlags := 3, remoteExchgFlags := 1 }, false,
        some { hostname := "node2", address := 0x0A000002 }) := by
    decide +kernel
  obtain ⟨m, hm, h⟩ := Option.map_eq_some_iff.mp hrun
  simp only [Prod.mk.injEq] at h
  obtain ⟨hq, hc, hstate, hshutdown, hinfo⟩ := h
  have hset : (m.connectionStates 2).isConnectedToRemote = true := by
    rw [hstate]
    decide
  have hdiscovered : m.discoveryManager.nodeInfo 2 ≠ none := by simp [hinfo]
  have hcreated : (m.connectionStates 2).state = .created := by rw [hstate]
  have hdet : m.Detected (exampleRemote 3 1 0x33) :=
    ⟨hshutdown, hdiscovered, hcreated, by decide⟩
  obtain ⟨m', hstep, hdoomed⟩ :=
    (restart_detected_iff {} ⟨_, hm⟩ hc hset (by decide) hq).mpr (Or.inr hdet)
  exact ⟨m, m', hm, hstep, hdoomed⟩

end ConnectionManager

end Ibdxnet.Con
