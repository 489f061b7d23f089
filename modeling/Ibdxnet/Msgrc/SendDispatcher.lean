import Ibdxnet.Lib.Lts
import Ibdxnet.Msgrc.SendSlicing

/-!
# The send dispatcher

`SendDispatcher::Dispatch` with `__SendData`, `__SendDataPostWorkRequests` and
`__PollCompletions`.  The dispatcher runs in a `SendWorld`: next to its own
state the world keeps the work requests on the send queues whose completions
have not been polled, and what the dispatcher told its surroundings.

What the surroundings answer in one call of `Dispatch` is a `DispatchEnv`: the
work package, how `GetConnection` and `ibv_post_send` turn out, and the
completions `ibv_poll_cq` offers.  Of these only those of outstanding work
requests are delivered, each once, and no more than the completion list holds.

A call that throws ends the thread: `step` has no state for it.
-/

namespace Ibdxnet.Msgrc

open Ibdxnet.Con Sys

/-! ## Surroundings -/

/-- A work request on the send queue of the connection to `nodeId`. -/
structure PostedWr where
  nodeId : NodeId
  wr : IbvSendWr
  deriving DecidableEq, Repr

/-- A call to the connection manager; `getConnection` is one that returned. -/
inductive ConnectionCall
  | getConnection (nodeId : NodeId)
  | returnConnection (nodeId : NodeId)
  | closeConnection (nodeId : NodeId) (force : Bool)
  deriving DecidableEq, Repr

/-- How `ibv_post_send` turns out; a failing call may have taken some of the list. -/
inductive PostSend
  | success
  | failure (enomem : Bool) (accepted : Nat)

/-- The answers of the surroundings in one call of `Dispatch`. -/
structure DispatchEnv where
  workPackage : Option NextWorkPackage
  getConnection : Except Exception Connection
  postSend : PostSend
  pollCq : Option (List IbvWc)

structure SendWorld where
  dispatcher : SendDispatcher
  /-- `connection`, the local variable of `Dispatch` both of its blocks use. -/
  connection : Option Connection
  /-- On a send queue, completion not polled. -/
  outstanding : List PostedWr
  /-- Handed to `ibv_post_send` in the last call of `Dispatch`. -/
  posted : List PostedWr
  /-- Handed to `ibv_post_send` in all calls, in order. -/
  history : List PostedWr
  /-- The sum of the `m_numBytesPosted` the handler was told for each node. -/
  reported : NodeId → Nat
  calls : List ConnectionCall

def SendWorld.init (cfg : SendConfig) : SendWorld where
  dispatcher := .init cfg
  connection := none
  outstanding := []
  posted := []
  history := []
  reported _ := 0
  calls := []

/-- The completions `ibv_poll_cq` delivers of those offered, and what stays outstanding. -/
def pollOutstanding : List PostedWr → List IbvWc → List (PostedWr × IbvWcStatus) × List PostedWr
  | outstanding, [] => ([], outstanding)
  | outstanding, wc :: wcs =>
    match outstanding.find? fun p => p.wr.wrId = wc.wrId with
    | some p =>
      let (polled, rest) := pollOutstanding (outstanding.erase p) wcs
      ((p, wc.status) :: polled, rest)
    | none => pollOutstanding outstanding wcs

/-! ## Completions -/

/-- `x--` on a `uint16_t` -/
def dec16 (x : Nat) : Nat := (x + 2 ^ 16 - 1) % 2 ^ 16

/-- `x--` on a `uint32_t` -/
def dec32 (x : Nat) : Nat := (x + 2 ^ 32 - 1) % 2 ^ 32

/-- The bookkeeping of a successful completion in `m_completionList`. -/
def CompletedWorkList.add (l : CompletedWorkList) (ctx : SendWorkRequestCtx) : CompletedWorkList :=
  let n := ctx.targetNodeId
  let l := if l.numBytesWritten n = 0 ∧ l.fcDataWritten n = 0 then
      { l with
        nodeIds := Function.update l.nodeIds l.numNodes n
        numNodes := (l.numNodes + 1) % 2 ^ 16 }
    else l
  { l with
    numBytesWritten := Function.update l.numBytesWritten n
      ((l.numBytesWritten n + ctx.sendSize) % 2 ^ 32)
    fcDataWritten := Function.update l.fcDataWritten n (l.fcDataWritten n + ctx.fcData.toUInt8) }

namespace SendDispatcher

/-- One request to the node of `ctx` is no longer pending. -/
def decPending (d : SendDispatcher) (ctx : SendWorkRequestCtx) : SendDispatcher :=
  { d with
    sendQueuePending := Function.update d.sendQueuePending ctx.targetNodeId
      (dec16 (d.sendQueuePending ctx.targetNodeId))
    completionsPending := dec32 d.completionsPending }

@[simp] theorem decPending_workRequestCtxPool (d : SendDispatcher) (ctx : SendWorkRequestCtx) :
    (d.decPending ctx).workRequestCtxPool = d.workRequestCtxPool := by rw [decPending]

@[simp] theorem decPending_ctxs (d : SendDispatcher) (ctx : SendWorkRequestCtx) :
    (d.decPending ctx).ctxs = d.ctxs := by rw [decPending]

@[simp] theorem decPending_prevWorkPackageResults (d : SendDispatcher)
    (ctx : SendWorkRequestCtx) :
    (d.decPending ctx).prevWorkPackageResults = d.prevWorkPackageResults := by rw [decPending]

@[simp] theorem decPending_firstWc (d : SendDispatcher) (ctx : SendWorkRequestCtx) :
    (d.decPending ctx).firstWc = d.firstWc := by rw [decPending]

@[simp] theorem decPending_ignoreFlushErr (d : SendDispatcher) (ctx : SendWorkRequestCtx) :
    (d.decPending ctx).ignoreFlushErrOnPendingCompletions =
      d.ignoreFlushErrOnPendingCompletions := by rw [decPending]

/-- `chunks` requests to the node are pending from now on. -/
def addPending (d : SendDispatcher) (nodeId : NodeId) (chunks : Nat) : SendDispatcher :=
  { d with
    sendQueuePending := Function.update d.sendQueuePending nodeId
      ((d.sendQueuePending nodeId + chunks) % 2 ^ 16)
    completionsPending := (d.completionsPending + chunks) % 2 ^ 32 }

/-- What the handler of a `DisconnectedException` does to the dispatcher. -/
def handleDisconnect (d : SendDispatcher) : SendDispatcher :=
  { d with
    prevWorkPackageResults := .reset
    ignoreFlushErrOnPendingCompletions :=
      (d.ignoreFlushErrOnPendingCompletions + d.completionsPending) % 2 ^ 32 }

/-- `m_workRequestCtxPool->Push(ctx)` -/
def pushCtx (ctx : Nat) : EStateM Exception SendDispatcher Unit :=
  Exec.zoom workRequestCtxPool (fun d p => { d with workRequestCtxPool := p })
    (SendWorkRequestCtxPool.push ctx)

/-- The part of a round that depends on the status of the completion. -/
def completeStatus (wc : IbvWc) : EStateM Exception SendDispatcher Unit := do
  let d ← get
  let ctx := d.ctxs wc.wrId
  match wc.status with
  | .success =>
    set ({ d with firstWc := false, completionList := d.completionList.add ctx }.decPending ctx)
  | .wrFlushErr =>
    if d.ignoreFlushErrOnPendingCompletions ≠ 0 then
      -- some node disconnected/failed and its errors are ignored for a bit
      set (d.decPending ctx)
    else
      throw (.ibException "Found failed work completion (%d), ctx: %s, status %s")
  | .other => throw (.ibException "Found failed work completion (%d), ctx: %s, status %s")
  | .retryExcErr =>
    if d.firstWc then
      throw (.ibException ("First work completion of queue failed, it's very likely your " ++
        "connection attributes are wrong or the remote isn't in a state to respond"))
    else
      pushCtx wc.wrId
      throw (.disconnected ctx.targetNodeId)

/-- One round of the loop over the polled completions. -/
def complete (wc : IbvWc) : EStateM Exception SendDispatcher Unit := do
  completeStatus wc
  tryCatch (pushCtx wc.wrId) (fun _ => throw (.ibException "oops: %s"))
  modify fun d =>
    { d with ignoreFlushErrOnPendingCompletions := d.ignoreFlushErrOnPendingCompletions - 1 }

/-- The loop over the polled completions. -/
def completeAll : List IbvWc → EStateM Exception SendDispatcher Unit
  | [] => pure ()
  | wc :: wcs => do
    complete wc
    completeAll wcs

end SendDispatcher

namespace SendWorld

/-- Run a program of the dispatcher in the world. -/
def onDispatcher {α : Type} (x : EStateM Exception SendDispatcher α) :
    EStateM Exception SendWorld α :=
  Exec.zoom dispatcher (fun w d => { w with dispatcher := d }) x

/-- `__PollCompletions` -/
def pollCompletions (cfg : SendConfig) (env : DispatchEnv) : EStateM Exception SendWorld Bool := do
  let w ← get
  if w.dispatcher.completionsPending > 0 then
    match env.pollCq with
    -- one placeholder more than arguments in the text of the `IbException`
    | none => throw (.formatError "argument index out of range")
    | some wcs =>
      let polled := pollOutstanding w.outstanding (wcs.take cfg.ibSharedSCQSize.toNat)
      set { w with outstanding := polled.2 }
      onDispatcher (SendDispatcher.completeAll
        (polled.1.map fun c => ⟨c.1.wr.wrId, c.2⟩))
      let w ← get
      pure (decide (w.dispatcher.completionsPending > 0))
  else
    pure false

/-! ## Posting -/

/-- Connect work requests `0` to `chunks - 1`. -/
def linkWorkRequests (sendWrs : Nat → IbvSendWr) (chunks : Nat) : Nat → IbvSendWr :=
  (List.range (chunks - 1)).foldl
    (fun q i => Function.update q i { q i with next := some (i + 1) }) sendWrs

/-- Set `IBV_SEND_SIGNALED` on work requests `0` to `chunks - 1`. -/
def signalWorkRequests (sendWrs : Nat → IbvSendWr) (chunks : Nat) : Nat → IbvSendWr :=
  (List.range chunks).foldl (fun q i => Function.update q i { q i with signaled := true }) sendWrs

/-- The list `ibv_post_send` walks, from entry `i` on, in an array of this many entries. -/
def workRequestList (sendWrs : Nat → IbvSendWr) : Nat → Nat → List IbvSendWr
  | 0, _ => []
  | n + 1, i => sendWrs i ::
    match (sendWrs i).next with
    | none => []
    | some j => workRequestList sendWrs n j

/-- `__SendDataPostWorkRequests` -/
def sendDataPostWorkRequests (cfg : SendConfig) (env : DispatchEnv) (connection : Connection)
    (chunks : Nat) : EStateM Exception SendWorld Unit := do
  modify fun w =>
    let sendWrs := signalWorkRequests (linkWorkRequests w.dispatcher.sendWrs chunks) chunks
    { w with dispatcher := { w.dispatcher with sendWrs := sendWrs } }
  let w ← get
  let posted := (workRequestList w.dispatcher.sendWrs cfg.ibSQSize.toNat 0).map
    (PostedWr.mk connection.remoteNodeId)
  match env.postSend with
  | .failure enomem accepted =>
    set { w with outstanding := w.outstanding ++ posted.take accepted }
    if enomem then throw (.ibQueueFull "Send queue full: %d")
    -- as for the poll, the text has a placeholder too many
    else throw (.formatError "argument index out of range")
  | .success =>
    set { w with
      outstanding := w.outstanding ++ posted
      posted := posted
      history := w.history ++ posted
      dispatcher := w.dispatcher.addPending connection.remoteNodeId chunks }

/-- `__SendData` -/
def sendData (cfg : SendConfig) (env : DispatchEnv) (connection : Connection)
    (workPackage : NextWorkPackage) : EStateM Exception SendWorld Bool := do
  let chunks ← onDispatcher (sendDataPrepareWorkRequests cfg connection workPackage)
  if chunks > 0 then
    sendDataPostWorkRequests cfg env connection chunks
    pure true
  else
    pure false

/-! ## Dispatch -/

/-- The call of `GetConnection`; what it returns is a connection to that node. -/
def getConnection (env : DispatchEnv) (nodeId : NodeId) : EStateM Exception SendWorld Connection :=
  match env.getConnection with
  | .error e => throw e
  | .ok c => do
    let connection := { c with remoteNodeId := nodeId }
    modify fun w =>
      { w with connection := some connection, calls := w.calls ++ [.getConnection nodeId] }
    pure connection

def call (c : ConnectionCall) : EStateM Exception SendWorld Unit :=
  modify fun w => { w with calls := w.calls ++ [c] }

/-- The `try` block of `Dispatch`. -/
def tryDispatch (cfg : SendConfig) (env : DispatchEnv) (workPackage : NextWorkPackage) :
    EStateM Exception SendWorld Bool := do
  if workPackage.nodeId = nodeIdInvalid then
    -- nothing to send, poll completions
    pollCompletions cfg env
  else
    let connection ← getConnection env workPackage.nodeId
    let ret ← sendData cfg env connection workPackage
    call (.returnConnection connection.remoteNodeId)
    let polled ← pollCompletions cfg env
    pure (polled || ret)

/-- The `catch` blocks of `Dispatch`. -/
def catchDispatch (cfg : SendConfig) (env : DispatchEnv) :
    Exception → EStateM Exception SendWorld Bool
  | .timeout _ => pollCompletions cfg env
  | .disconnected nodeId => do
    let w ← get
    match w.connection with
    | some connection => call (.returnConnection connection.remoteNodeId)
    | none => pure ()
    call (.closeConnection nodeId true)
    modify fun w => { w with dispatcher := w.dispatcher.handleDisconnect }
    pure true
  | e => throw e

/-- `GetNextDataToSend` is called with the results of the previous package; then
results and completion list are reset. -/
def beginDispatch (w : SendWorld) : SendWorld :=
  let results := w.dispatcher.prevWorkPackageResults
  { w with
    connection := none
    posted := []
    reported := Function.update w.reported results.nodeId
      (w.reported results.nodeId + results.numBytesPosted)
    dispatcher := { w.dispatcher with
      prevWorkPackageResults := .reset
      completionList := w.dispatcher.completionList.reset } }

/-- `Dispatch` -/
def dispatch (cfg : SendConfig) (env : DispatchEnv) : EStateM Exception SendWorld Bool := do
  match env.workPackage with
  | none => throw (.illegalState "Work package null")
  | some workPackage =>
    modify beginDispatch
    tryCatch (tryDispatch cfg env workPackage) (catchDispatch cfg env)

/-- One call of `Dispatch` that returns. -/
def step (cfg : SendConfig) (w : SendWorld) (env : DispatchEnv) : Option SendWorld :=
  match (dispatch cfg env).run w with
  | .ok _ w' => some w'
  | .error _ _ => none

end SendWorld

end Ibdxnet.Msgrc
