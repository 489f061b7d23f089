import Ibdxnet.Msgrc.RecvOwnership
import Ibdxnet.Msgrc.SendFailures

/-!
# Disconnects in the dispatchers

Where a `DisconnectedException` is raised while a dispatcher runs, and what
becomes of it.  The send dispatcher raises it in its `try` block, from
`GetConnection` or from the poll, and there the handler turns it into a
`CloseConnection`:

    GetConnection, poll in the try block        caught, closed
    poll in the handler of a TimeoutException   escapes Dispatch
    __ProcessCompletions of the receive side    escapes Dispatch

The last two are not covered by any handler.
-/

namespace Ibdxnet.Msgrc

open Ibdxnet.Con Sys Dx

/-! ## The send dispatcher -/

namespace SendWorld

/-- While `Dispatch` runs in `w`, a `DisconnectedException` is raised in the world `w₁`. -/
inductive Raises (cfg : SendConfig) (env : DispatchEnv) (w : SendWorld) (nodeId : NodeId)
    (w₁ : SendWorld) : Prop
  | tryBlock {workPackage : NextWorkPackage} (h : env.workPackage = some workPackage)
    (hrun : (tryDispatch cfg env workPackage).run w.beginDispatch =
      .error (.disconnected nodeId) w₁)
  | timeoutHandler {workPackage : NextWorkPackage} {reason : String} {w₀ : SendWorld}
    (h : env.workPackage = some workPackage)
    (htry : (tryDispatch cfg env workPackage).run w.beginDispatch = .error (.timeout reason) w₀)
    (hrun : (pollCompletions cfg env).run w₀ = .error (.disconnected nodeId) w₁)

/-- No disconnect leaves `Dispatch`, and each is answered with a request to close the
connection to its node. -/
structure HandlesDisconnects (cfg : SendConfig) (w : SendWorld) (env : DispatchEnv) : Prop where
  caught : ∀ nodeId w', (dispatch cfg env).run w ≠ .error (.disconnected nodeId) w'
  closed : ∀ nodeId w₁, Raises cfg env w nodeId w₁ →
    ∃ ret w' calls, (dispatch cfg env).run w = .ok ret w' ∧ w'.calls = w₁.calls ++ calls ∧
      .closeConnection nodeId true ∈ calls

/-- A poll in this world meets a disconnect of the node. -/
def PollDisconnects (cfg : SendConfig) (env : DispatchEnv) (w : SendWorld) (nodeId : NodeId) :
    Prop :=
  0 < w.dispatcher.completionsPending ∧
    Disconnects w.dispatcher.firstWc w.dispatcher.ignoreFlushErrOnPendingCompletions
      (w.polled cfg env).1 nodeId

/-- `GetConnection` times out, and the poll that follows in the handler meets a disconnect. -/
def DisconnectsAfterTimeout (cfg : SendConfig) (w : SendWorld) (env : DispatchEnv) : Prop :=
  (∃ workPackage, env.workPackage = some workPackage ∧ workPackage.nodeId ≠ nodeIdInvalid) ∧
    (∃ reason, env.getConnection = .error (.timeout reason)) ∧
    ∃ nodeId, w.PollDisconnects cfg env nodeId

section
variable {cfg : SendConfig} {env : DispatchEnv} {workPackage : NextWorkPackage} {w w' : SendWorld}

theorem run_dispatch (hwp : env.workPackage = some workPackage) : (dispatch cfg env).run w =
    match (tryDispatch cfg env workPackage).run w.beginDispatch with
    | .ok ret w' => .ok ret w'
    | .error e w' => (catchDispatch cfg env e).run w' := by
  simp only [dispatch, hwp, EStateM.run_bind, EStateM.run_modify, Exec.run_tryCatch]
  cases (tryDispatch cfg env workPackage).run w.beginDispatch <;> rfl

theorem Covered.run_pollCompletions_disconnected_iff (h : w.Covered cfg) {nodeId : NodeId} :
    (∃ w', (pollCompletions cfg env).run w = .error (.disconnected nodeId) w') ↔
      w.PollDisconnects cfg env nodeId := by
  obtain ⟨free, h⟩ := h.covers_polled env
  rw [PollDisconnects, ← h.run_completeAll_disconnected_iff, run_pollCompletions]
  constructor
  · rintro ⟨w', hrun⟩
    split at hrun
    · next hpos =>
      split at hrun
      · cases hrun
      · cases hc : w.completed cfg env with
        | ok u d => rw [hc] at hrun; cases hrun
        | error e d =>
          rw [hc] at hrun
          cases hrun
          exact ⟨hpos, d, hc⟩
    · cases hrun
  · rintro ⟨hpos, d, hd⟩
    have hc : w.completed cfg env = .error (.disconnected nodeId) d := hd
    have hcq : env.pollCq ≠ none := by
      intro hnone
      rw [polled, hnone, Option.getD_none, List.take_nil] at hd
      cases hd
    rw [if_pos hpos, if_neg hcq, hc]
    exact ⟨_, rfl⟩

/-- Only `GetConnection` times out, before anything is sent. -/
theorem run_tryDispatch_timeout {reason : String}
    (hrun : (tryDispatch cfg env workPackage).run w = .error (.timeout reason) w') :
    workPackage.nodeId ≠ nodeIdInvalid ∧ env.getConnection = .error (.timeout reason) ∧
      w' = w := by
  rcases run_tryDispatch rfl with ⟨w₁, -, f, hr⟩ | ⟨hne, e, hc, hr⟩ | ⟨e, w₁, hr, he⟩
  · rw [hrun] at hr
    cases hp : (pollCompletions cfg env).run w₁ with
    | ok b w₂ => rw [hp] at hr; cases hr
    | error e w₂ =>
      rw [hp] at hr
      cases hr
      exact absurd rfl (pollCompletions_throws cfg env _ _ _ hp reason)
  · rw [hrun] at hr
    cases hr
    exact ⟨hne, hc, rfl⟩
  · rw [hrun] at hr
    cases hr
    exact absurd trivial he

theorem run_tryDispatch_of_timeout {reason : String} (hne : workPackage.nodeId ≠ nodeIdInvalid)
    (hc : env.getConnection = .error (.timeout reason)) :
    (tryDispatch cfg env workPackage).run w = .error (.timeout reason) w := by
  simp only [tryDispatch, if_neg hne, EStateM.run_bind, getConnection, hc, Exec.run_throw]

/-- An exception the handlers rethrow is not a disconnect, and neither times out again. -/
theorem run_catchDispatch_disconnected_iff {e : Exception} {nodeId : NodeId} :
    (catchDispatch cfg env e).run w = .error (.disconnected nodeId) w' ↔
      (∃ reason, e = .timeout reason) ∧
        (pollCompletions cfg env).run w = .error (.disconnected nodeId) w' := by
  constructor
  · intro hrun
    cases e with
    | timeout reason => exact ⟨⟨reason, rfl⟩, hrun⟩
    | disconnected n => rw [run_catchDispatch_disconnected] at hrun; cases hrun
    | illegalState | poolIllegalState | ibException | ibQueueFull | invalidNodeId
    | nodeNotAvailable | formatError => cases hrun
  · rintro ⟨⟨reason, rfl⟩, hrun⟩
    exact hrun

/-- The one way out: the poll in the handler of the timeout. -/
theorem Covered.dispatch_disconnected_iff (h : w.Covered cfg) :
    (∃ nodeId w', (dispatch cfg env).run w = .error (.disconnected nodeId) w') ↔
      w.DisconnectsAfterTimeout cfg env := by
  constructor
  · rintro ⟨nodeId, w', hrun⟩
    cases hwp : env.workPackage with
    | none => rw [dispatch, hwp] at hrun; cases hrun
    | some workPackage =>
      rw [run_dispatch hwp] at hrun
      cases htry : (tryDispatch cfg env workPackage).run w.beginDispatch with
      | ok ret w₁ => rw [htry] at hrun; cases hrun
      | error e w₁ =>
        rw [htry] at hrun
        obtain ⟨⟨reason, rfl⟩, hpoll⟩ := run_catchDispatch_disconnected_iff.mp hrun
        obtain ⟨hne, hc, rfl⟩ := run_tryDispatch_timeout htry
        exact ⟨⟨workPackage, hwp, hne⟩, ⟨reason, hc⟩, nodeId,
          h.begin.run_pollCompletions_disconnected_iff.mp ⟨w', hpoll⟩⟩
  · rintro ⟨⟨workPackage, hwp, hne⟩, ⟨reason, hc⟩, nodeId, hpoll⟩
    obtain ⟨w', hrun⟩ := h.begin.run_pollCompletions_disconnected_iff.mpr hpoll
    refine ⟨nodeId, w', ?_⟩
    rw [run_dispatch hwp, run_tryDispatch_of_timeout hne hc]
    exact hrun

theorem Covered.handlesDisconnects_iff (h : w.Covered cfg) :
    HandlesDisconnects cfg w env ↔ ¬ w.DisconnectsAfterTimeout cfg env := by
  rw [← h.dispatch_disconnected_iff]
  constructor
  · rintro hhandles ⟨nodeId, w', hrun⟩
    exact hhandles.caught nodeId w' hrun
  · intro hnone
    refine ⟨fun nodeId w' hrun => hnone ⟨nodeId, w', hrun⟩, fun nodeId w₁ hraises => ?_⟩
    cases hraises with
    | tryBlock hwp htry =>
      rw [run_dispatch hwp, htry]
      refine ⟨true, _, _, run_catchDispatch_disconnected, List.append_assoc _ _ _, ?_⟩
      exact List.mem_append_right _ List.mem_cons_self
    | timeoutHandler hwp htry hpoll =>
      refine absurd ⟨nodeId, w₁, ?_⟩ hnone
      rw [run_dispatch hwp, htry]
      exact hpoll

end

end SendWorld

/-! ## The receive dispatcher -/

/-- Not a `DisconnectedException`. -/
def NotDisconnected (e : Exception) : Prop := ∀ nodeId, e ≠ .disconnected nodeId

namespace RecvDispatcher

theorem takeSlots_throws (A : Arith) (front i k : Nat) :
    Exec.Throws NotDisconnected (RecvBufferPool.takeSlots A front i k) := by
  induction k generalizing i with
  | zero => exact Exec.Throws.pure _
  | succ k ih =>
    refine Exec.Throws.get.bind fun p => ?_
    simp only
    split
    · exact Exec.Throws.throw (by simp [NotDisconnected])
    · exact (Exec.Throws.set _).bind fun _ => (ih _).bind fun _ => Exec.Throws.pure _

theorem getBuffers_throws (A : Arith) (count : Nat) :
    Exec.Throws NotDisconnected (RecvBufferPool.getBuffers A count) := by
  refine Exec.Throws.ite (Exec.Throws.pure _) ?_
  refine Exec.Throws.get.bind fun p => Exec.Throws.ite (Exec.Throws.pure _) ?_
  exact (takeSlots_throws _ _ _ _).bind fun _ =>
    (Exec.Throws.modify _).bind fun _ => Exec.Throws.pure _

theorem fillSlots_throws (A : Arith) (backRes i : Nat) (buffers : List IbMemReg) :
    Exec.Throws NotDisconnected (RecvBufferPool.fillSlots A backRes i buffers) := by
  induction buffers generalizing i with
  | nil => exact Exec.Throws.pure _
  | cons b bs ih =>
    refine Exec.Throws.get.bind fun p => ?_
    refine Exec.Throws.ite (Exec.Throws.throw (by simp [NotDisconnected])) ?_
    exact (Exec.Throws.set _).bind fun _ => ih _

theorem returnBuffers_throws (A : Arith) (buffers : List IbMemReg) :
    Exec.Throws NotDisconnected (RecvBufferPool.returnBuffers A buffers) := by
  refine Exec.Throws.ite (Exec.Throws.pure _) ?_
  refine Exec.Throws.get.bind fun p => ?_
  refine Exec.Throws.ite (Exec.Throws.throw (by simp [NotDisconnected])) ?_
  exact (Exec.Throws.set _).bind fun _ =>
    (fillSlots_throws _ _ _ _).bind fun _ => Exec.Throws.modify _

theorem returnUnused_throws (cfg : RecvConfig) (rest : List IbMemReg) :
    Exec.Throws NotDisconnected (returnUnused cfg rest) :=
  Exec.Throws.ite (returnBuffers_throws cfg.arith rest).zoom (Exec.Throws.pure _)

theorem popWR_throws : Exec.Throws NotDisconnected RecvWorkRequestPool.pop := by
  refine Exec.Throws.get.bind fun p => ?_
  refine Exec.Throws.ite (Exec.Throws.throw (by simp [NotDisconnected])) ?_
  split
  · exact Exec.Throws.throw (by simp [NotDisconnected])
  · exact (Exec.Throws.set _).bind fun _ => Exec.Throws.pure _

theorem pushWR_throws (id : Nat) : Exec.Throws NotDisconnected (RecvWorkRequestPool.push id) := by
  refine Exec.Throws.get.bind fun p => ?_
  refine Exec.Throws.ite (Exec.Throws.throw (by simp [NotDisconnected])) ?_
  exact Exec.Throws.ite (Exec.Throws.throw (by simp [NotDisconnected])) (Exec.Throws.set _)

theorem pushEntry_throws (e : Entry) :
    Exec.Throws NotDisconnected (IncomingRingBuffer.pushEntry e) := by
  refine (Exec.Throws.modify _).bind fun _ => (Exec.Throws.modify _).bind fun _ => ?_
  refine Exec.Throws.get.bind fun r => ?_
  exact Exec.Throws.ite (Exec.Throws.throw (by simp [NotDisconnected])) (Exec.Throws.set _)

variable (cfg : RecvConfig)

theorem poll_throws (ret : Option (List IbvRecvWc)) :
    Exec.Throws NotDisconnected (poll cfg ret) := by
  have hend : Exec.Throws NotDisconnected (do
      let d ← get
      pure (decide (d.received > 0)) : EStateM Exception RecvDispatcher Bool) :=
    Exec.Throws.get.bind fun _ => Exec.Throws.pure _
  refine Exec.Throws.get.bind fun d => Exec.Throws.ite ?_ ?_
  · cases ret with
    | none => exact (Exec.Throws.throw (by simp [NotDisconnected])).bind fun _ => hend
    | some workComps => exact (Exec.Throws.set _).bind fun _ => hend
  · exact (Exec.Throws.set _).bind fun _ => hend

theorem refillGetBuffers_throws : Exec.Throws NotDisconnected (refillGetBuffers cfg) := by
  refine Exec.Throws.get.bind fun d => Exec.Throws.ite ?_ (Exec.Throws.pure _)
  exact (getBuffers_throws _ _).zoom.bind fun _ => Exec.Throws.pure _

theorem addBuffers_throws (id : Nat) (bs : List IbMemReg) :
    Exec.Throws NotDisconnected (addBuffers id bs) := by
  induction bs with
  | nil => exact Exec.Throws.pure _
  | cons b bs ih =>
    refine Exec.Throws.bind (Exec.Throws.zoom ?_) fun _ => ih
    refine Exec.Throws.get.bind fun l => ?_
    exact Exec.Throws.ite (Exec.Throws.throw (by simp [NotDisconnected])) (Exec.Throws.set _)

theorem prepareWorkRequests_throws (n : Nat) (refsMemReg : List IbMemReg) :
    Exec.Throws NotDisconnected (prepareWorkRequests cfg n refsMemReg) := by
  induction n generalizing refsMemReg with
  | zero => exact Exec.Throws.pure _
  | succ n ih =>
    refine Exec.Throws.ite (Exec.Throws.pure _) ?_
    refine popWR_throws.zoom.bind fun recvWR => (Exec.Throws.modify _).bind fun _ => ?_
    refine (addBuffers_throws recvWR _).bind fun _ => (Exec.Throws.modify _).bind fun _ => ?_
    exact (ih _).bind fun _ => Exec.Throws.pure _

theorem refillPrepare_throws (toQueueElems : Nat) (refsMemReg : List IbMemReg) :
    Exec.Throws NotDisconnected (refillPrepare cfg toQueueElems refsMemReg) := by
  refine (prepareWorkRequests_throws cfg _ _).bind fun r => ?_
  exact (returnUnused_throws _ _).bind fun _ =>
    (Exec.Throws.modify _).bind fun _ => Exec.Throws.pure _

theorem dispatchReceived_throws (processed : Nat) :
    Exec.Throws NotDisconnected (dispatchReceived processed) := by
  refine Exec.Throws.get.bind fun d => Exec.Throws.ite (Exec.Throws.pure _) ?_
  refine Exec.Throws.bind (Exec.Throws.zoom ?_) fun _ => Exec.Throws.pure _
  refine Exec.Throws.get.bind fun r => ?_
  exact Exec.Throws.ite (Exec.Throws.throw (by simp [NotDisconnected])) (Exec.Throws.set _)

theorem processBuffers_throws (immData : ImmediateData) (n : Nat) (bs : List IbMemReg) :
    Exec.Throws NotDisconnected (processBuffers cfg immData n bs) := by
  induction bs generalizing immData n with
  | nil => exact Exec.Throws.pure _
  | cons b bs ih =>
    rw [processBuffers]
    simp only
    refine (pushEntry_throws _).zoom.bind fun _ => ?_
    exact Exec.Throws.ite (Exec.Throws.pure _) ((ih _ _).bind fun _ => Exec.Throws.pure _)

/-- Past the check of the status no disconnect is thrown. -/
theorem processCompletion_disconnected_iff {wc : IbvRecvWc} {d : RecvDispatcher}
    {nodeId : NodeId} :
    (∃ d', (processCompletion cfg wc).run d = .error (.disconnected nodeId) d') ↔
      wc.status = .retryExcErr ∧ d.firstWc = false ∧ wc.immData.sourceNodeId = nodeId := by
  constructor
  · rintro ⟨d', hrun⟩
    rcases Exec.run_bind_eq_error.mp hrun with hcheck | ⟨_, d₁, -, hrest⟩
    · simp only [checkStatus, EStateM.run_bind, EStateM.run_get] at hcheck
      cases hstatus : wc.status with
      | success => rw [hstatus] at hcheck; cases hcheck
      | retryExcErr =>
        rw [hstatus] at hcheck
        simp only [Exec.run_ite, Exec.run_throw] at hcheck
        split at hcheck
        · cases hcheck
        · next hfirst =>
          cases hcheck
          exact ⟨rfl, by simpa using hfirst, rfl⟩
      | wrFlushErr | other => rw [hstatus] at hcheck; cases hcheck
    · have hthrows : Exec.Throws NotDisconnected (do
          modify fun d : RecvDispatcher => { d with firstWc := false }
          let d ← get
          let refsMemReg := (d.workRequests wc.wrId).sgls.refsMemReg
          if wc.byteLen = 0 then
            onBufferPool (RecvBufferPool.returnBuffers cfg.arith refsMemReg)
            onWRPool (RecvWorkRequestPool.push wc.wrId)
            if wc.immData.flowControlData = 0 then
              throw (.illegalState "Zero length data received but no flow control data")
            onRingBuffer (IncomingRingBuffer.pushEntry (fcEntry wc.immData))
          else
            let sgesUsed ← processBuffers cfg wc.immData wc.byteLen refsMemReg
            returnUnused cfg (refsMemReg.drop sgesUsed)
            onWRPool (RecvWorkRequestPool.push wc.wrId)) := by
        refine (Exec.Throws.modify _).bind fun _ => Exec.Throws.get.bind fun d => ?_
        refine Exec.Throws.ite ?_ ?_
        · refine (returnBuffers_throws _ _).zoom.bind fun _ =>
            (pushWR_throws _).zoom.bind fun _ => ?_
          have hpush : Exec.Throws NotDisconnected
              (onRingBuffer (IncomingRingBuffer.pushEntry (fcEntry wc.immData))) :=
            (pushEntry_throws _).zoom
          exact Exec.Throws.ite
            ((Exec.Throws.throw (by simp [NotDisconnected])).bind fun _ => hpush) hpush
        · exact (processBuffers_throws cfg _ _ _).bind fun _ =>
            (returnUnused_throws _ _).bind fun _ => (pushWR_throws _).zoom
      exact absurd rfl (hthrows _ _ _ hrest nodeId)
  · rintro ⟨hstatus, hfirst, rfl⟩
    refine ⟨d, Exec.run_bind_eq_error.mpr (Or.inl ?_)⟩
    simp only [checkStatus, EStateM.run_bind, EStateM.run_get, hstatus, hfirst,
      Bool.false_eq_true, if_false, Exec.run_throw]

end RecvDispatcher

namespace RecvWorld

/-- No disconnect leaves the step, which would end the thread. -/
def HandlesDisconnects (cfg : RecvConfig) (w : RecvWorld) (a : RecvAction) : Prop :=
  ∀ w' nodeId, step cfg w a = some w' → w'.thrown ≠ some (.disconnected nodeId)

/-- The next completion to process has `IBV_WC_RETRY_EXC_ERR`, and is not the first ever. -/
def MeetsDisconnect (w : RecvWorld) : RecvAction → Prop
  | .process => w.thrown = none ∧ ∃ i wc, w.pc = .process i ∧
      w.dispatcher.workComps[i]? = some wc ∧ wc.status = .retryExcErr ∧
      w.dispatcher.firstWc = false
  | _ => False

theorem thrown_call {α : Type} {w : RecvWorld} {x : EStateM Exception RecvDispatcher α}
    {next : α → RecvWorld → RecvWorld} {e : Exception} (h : (w.call x next).thrown = some e)
    (hnext : ∀ a d, (next a { w with dispatcher := d }).thrown ≠ some e) :
    ∃ d, x.run w.dispatcher = .error e d := by
  rw [call] at h
  cases hx : x.run w.dispatcher with
  | ok a d =>
    rw [hx] at h
    exact absurd h (hnext a d)
  | error e' d =>
    rw [hx] at h
    obtain rfl := Option.some.inj h
    exact ⟨d, rfl⟩

/-- A program that throws no disconnect, with nothing thrown behind it. -/
theorem thrown_call_ne {α : Type} {w : RecvWorld} {x : EStateM Exception RecvDispatcher α}
    {next : α → RecvWorld → RecvWorld} (hx : Exec.Throws NotDisconnected x)
    (hnext : ∀ a d nodeId, (next a { w with dispatcher := d }).thrown ≠ some (.disconnected nodeId))
    (nodeId : NodeId) : (w.call x next).thrown ≠ some (.disconnected nodeId) := by
  intro h
  obtain ⟨d, hrun⟩ := thrown_call h fun a d => hnext a d nodeId
  exact absurd rfl (hx _ _ _ hrun nodeId)

theorem thrown_post {cfg : RecvConfig} {w : RecvWorld} (h : w.thrown = none)
    (failsAt : Option Nat) (recvWRs : List Nat) (nodeId : NodeId) :
    (post cfg failsAt recvWRs w).thrown ≠ some (.disconnected nodeId) := by
  cases recvWRs with
  | nil => simp [post, h]
  | cons id ids =>
    cases failsAt with
    | some i => simp [post]
    | none =>
      simp only [post]
      split
      · simp
      · simp [h]

/-- Only the processing of a completion ends in a disconnect. -/
theorem meetsDisconnect_of_step {cfg : RecvConfig} {w w' : RecvWorld} {a : RecvAction}
    {nodeId : NodeId} (hs : step cfg w a = some w')
    (hthrown : w'.thrown = some (.disconnected nodeId)) : w.MeetsDisconnect a := by
  unfold step at hs
  split at hs
  · cases hs
  next hnone =>
  have hnone : w.thrown = none := by simpa using hnone
  cases a with
  | poll ret =>
    have hpoll := fun ret => RecvDispatcher.poll_throws cfg ret
    cases ret with
    | none =>
      cases hpc : w.pc <;> simp only [hpc, reduceCtorEq] at hs
      split at hs
      · cases hs
        exact absurd hthrown (thrown_call_ne (hpoll _) (fun _ _ _ => by simp [hnone]) nodeId)
      · cases hs
    | some arrivals =>
      cases hpc : w.pc <;> simp only [hpc, reduceCtorEq] at hs
      split at hs
      · cases hs
        refine absurd hthrown (thrown_call_ne (hpoll _) (fun _ _ _ => ?_) nodeId)
        rw [foldl_arrive_eq]
        simp [hnone]
      · cases hs
  | refill =>
    cases hpc : w.pc <;> simp only [hpc, reduceCtorEq, Option.some.injEq] at hs
    subst hs
    refine absurd hthrown (thrown_call_ne (RecvDispatcher.refillGetBuffers_throws cfg)
      (fun r d n => ?_) nodeId)
    cases r <;> simp [hnone]
  | refillPost failsAt =>
    cases hpc : w.pc <;> simp only [hpc, reduceCtorEq, Option.some.injEq] at hs
    subst hs
    exact absurd hthrown (thrown_call_ne (RecvDispatcher.refillPrepare_throws cfg _ _)
      (fun recvWRs d n => thrown_post (w := { w with dispatcher := d }) hnone failsAt recvWRs n)
      nodeId)
  | process =>
    cases hpc : w.pc <;> simp only [hpc, reduceCtorEq] at hs
    next i =>
    cases hwc : w.dispatcher.workComps[i]? with
    | none =>
      simp only [hwc, Option.some.injEq] at hs
      subst hs
      simp [hnone] at hthrown
    | some wc =>
      simp only [hwc, Option.some.injEq] at hs
      subst hs
      obtain ⟨d, hrun⟩ := thrown_call hthrown (fun _ _ => by simp [hnone])
      obtain ⟨hstatus, hfirst, -⟩ :=
        (RecvDispatcher.processCompletion_disconnected_iff cfg).mp ⟨d, hrun⟩
      exact ⟨hnone, i, wc, hpc, hwc, hstatus, hfirst⟩
  | dispatchReceived processed =>
    cases hpc : w.pc <;> simp only [hpc, reduceCtorEq, Option.some.injEq] at hs
    subst hs
    refine absurd hthrown (thrown_call_ne (RecvDispatcher.dispatchReceived_throws processed)
      (fun called d n => ?_) nodeId)
    simp only
    split <;> simp [give, hnone]
  | returnBuffers bs =>
    have hreturn : Exec.Throws NotDisconnected
        (RecvDispatcher.onBufferPool (RecvBufferPool.returnBuffers cfg.arith bs)) :=
      (RecvDispatcher.returnBuffers_throws cfg.arith bs).zoom
    have hw : ∃ next : Unit → RecvWorld → RecvWorld, (∀ u v, (next u v).thrown = v.thrown) ∧
        w' = w.call (RecvDispatcher.onBufferPool (RecvBufferPool.returnBuffers cfg.arith bs))
          next := by
      refine ⟨fun _ w => { w with handler := w.handler.diff bs }, fun _ _ => rfl, ?_⟩
      cases hpc : w.pc <;> simp only [hpc] at hs <;> split at hs <;> cases hs <;> rfl
    obtain ⟨next, hnext, rfl⟩ := hw
    exact absurd hthrown (thrown_call_ne hreturn (fun _ _ _ => by rw [hnext]; simp [hnone]) nodeId)

theorem handlesDisconnects_iff (cfg : RecvConfig) (w : RecvWorld) (a : RecvAction) :
    HandlesDisconnects cfg w a ↔ ¬ w.MeetsDisconnect a := by
  constructor
  · intro hhandles hmeets
    cases a with
    | process =>
      obtain ⟨hnone, i, wc, hpc, hwc, hstatus, hfirst⟩ := hmeets
      obtain ⟨d', hrun⟩ := (RecvDispatcher.processCompletion_disconnected_iff cfg).mpr
        ⟨hstatus, hfirst, rfl⟩
      refine hhandles _ wc.immData.sourceNodeId (?_ : step cfg w .process = some
        { w with dispatcher := d', thrown := some (.disconnected wc.immData.sourceNodeId) }) rfl
      simp only [step, hnone, hpc, hwc, call, hrun]
      rfl
    | poll | refill | refillPost | dispatchReceived | returnBuffers => exact hmeets
  · intro hnot w' nodeId hs hthrown
    exact hnot (meetsDisconnect_of_step hs hthrown)

end RecvWorld

/-! ## Both -/

/-- In all runs of the two dispatchers every disconnect is caught and answered with
a request to close the connection, exactly if none is met in the two places
without a handler. -/
theorem disconnects_handled_iff (cfg : SendConfig) (recvCfg : RecvConfig)
    (envs : List DispatchEnv) (actions : List RecvAction) :
    Lts.Along (SendWorld.step cfg) (SendWorld.HandlesDisconnects cfg) (.init cfg) envs ∧
        Lts.Along (RecvWorld.step recvCfg) (RecvWorld.HandlesDisconnects recvCfg) (.init recvCfg)
          actions ↔
      Lts.Along (SendWorld.step cfg) (fun w env => ¬ w.DisconnectsAfterTimeout cfg env)
          (.init cfg) envs ∧
        Lts.Along (RecvWorld.step recvCfg) (fun w a => ¬ w.MeetsDisconnect a) (.init recvCfg)
          actions := by
  refine and_congr ?_ ?_
  · exact Lts.along_congr (I := SendWorld.Covered cfg)
      (fun w env h => h.handlesDisconnects_iff) (fun w env w' h hs => h.step hs)
      ⟨_, Covers.init cfg⟩
  · exact Lts.along_congr (I := fun _ => True)
      (fun w a _ => RecvWorld.handlesDisconnects_iff recvCfg w a) (fun _ _ _ _ _ => trivial)
      trivial

namespace SendWorld

/-- The node of the `DisconnectedException` this result throws. -/
def escaped : EStateM.Result Exception SendWorld Bool → Option NodeId
  | .error (.disconnected nodeId) _ => some nodeId
  | _ => none

theorem eq_error_of_escaped {r : EStateM.Result Exception SendWorld Bool} {nodeId : NodeId}
    (h : escaped r = some nodeId) : ∃ w', r = .error (.disconnected nodeId) w' := by
  unfold escaped at h
  split at h
  · cases h
    exact ⟨_, rfl⟩
  · cases h

/-- A package for node 2 whose `GetConnection` times out, with the completions polled after it. -/
def timesOut (wcs : List IbvWc) : DispatchEnv where
  workPackage := some ⟨0, 8, 0, 2⟩
  getConnection := .error (.timeout "")
  postSend := .success
  pollCq := some wcs

/-- Two completions on the receive side, the second one failed, up to where it is processed. -/
def failedCompletion : List RecvAction :=
  RecvWorld.dispatchSteps [] 0 ++ [.poll (some
    [⟨0, .success, ⟨[1], ⟨1, 0⟩⟩⟩, ⟨1, .retryExcErr, ⟨[], ⟨1, 0⟩⟩⟩]),
    .refill, .refillPost none, .process]

/-- One of two work requests to node 1 has failed when `GetConnection` times out for
node 2; on the receive side the second completion of a batch fails. -/
theorem timeout_lets_disconnect_escape :
    ¬ Lts.Along (step smallConfig) (HandlesDisconnects smallConfig) (init smallConfig)
        [sendTo 1 0 8 [⟨0, .success⟩], timesOut [⟨1, .retryExcErr⟩]] ∧
      ¬ Lts.Along (RecvWorld.step RecvWorld.smallRecvConfig)
        (RecvWorld.HandlesDisconnects RecvWorld.smallRecvConfig)
        (RecvWorld.init RecvWorld.smallRecvConfig) (failedCompletion ++ [.process]) := by
  constructor
  · intro halong
    have hmap : (step smallConfig (init smallConfig) (sendTo 1 0 8 [⟨0, .success⟩])).map
        (fun w => escaped ((dispatch smallConfig (timesOut [⟨1, .retryExcErr⟩])).run w)) =
          some (some 1) := by decide +kernel
    obtain ⟨w, hw, hescaped⟩ := Option.map_eq_some_iff.mp hmap
    obtain ⟨w', hrun⟩ := eq_error_of_escaped hescaped
    exact ((Lts.along_cons.mp ((Lts.along_cons.mp halong).2 w hw)).1).caught 1 w' hrun
  · intro halong
    have hmap : (Lts.exec (RecvWorld.step RecvWorld.smallRecvConfig)
        (RecvWorld.init RecvWorld.smallRecvConfig) failedCompletion).map (fun w =>
          (RecvWorld.step RecvWorld.smallRecvConfig w .process).map RecvWorld.thrown) =
        some (some (some (.disconnected 1))) := by decide +kernel
    obtain ⟨w, hw, hstep⟩ := Option.map_eq_some_iff.mp hmap
    obtain ⟨w', hw', hthrown⟩ := Option.map_eq_some_iff.mp hstep
    have hhandles := (Lts.along_cons.mp ((Lts.along_append.mp halong).2 w hw)).1
    exact hhandles w' 1 hw' hthrown

end SendWorld

end Ibdxnet.Msgrc
