import Ibdxnet.Msgrc.SendDispatcher

/-!
# What one call of Dispatch can do

The run of `Dispatch` taken apart.  `run_prepare_ok` and `run_sendData_ok` say
what a returning `__SendData` has built and posted; `step_cases` lists the ways
a call of `Dispatch` can return:

    nothing to send, or data posted; then completions polled, to the end or
      up to a disconnect that is handled
    GetConnection timed out; completions polled to the end
    GetConnection found the node disconnected; handled
-/

namespace Ibdxnet.Msgrc

open Ibdxnet.Con Sys

/-! ## Preparing -/

/-- The requests the dispatcher builds for a package. -/
def packageRequests (cfg : SendConfig) (d : SendDispatcher) (connection : Connection)
    (workPackage : NextWorkPackage) : List SendRequest :=
  requests cfg connection.sendBufferSize workPackage.posFrontRel
    (cfg.ibSQSize.toNat - d.sendQueuePending workPackage.nodeId) workPackage.posBackRel
    workPackage.flowControlData

/-- `m_prevWorkPackageResults` once the requests `rs` are built. -/
def packageResults (cfg : SendConfig) (connection : Connection) (workPackage : NextWorkPackage)
    (rs : List SendRequest) : PrevWorkPackageResults where
  nodeId := workPackage.nodeId
  numBytesPosted := rs.foldl (addSendSize cfg.arith) 0
  numBytesNotPosted := cfg.arith.sub
    (totalBytesToProcess cfg connection.sendBufferSize workPackage.posBackRel
      workPackage.posFrontRel) (rs.foldl (addSendSize cfg.arith) 0)
  fcDataPosted := if rs = [] then 0 else workPackage.flowControlData
  fcDataNotPosted := if rs = [] then workPackage.flowControlData else 0

def SendDispatcher.prepare (d : SendDispatcher) (cfg : SendConfig) (connection : Connection)
    (workPackage : NextWorkPackage) (ids : List Nat) (p : SendWorkRequestCtxPool) :
    SendDispatcher :=
  let rs := packageRequests cfg d connection workPackage
  { d.store connection workPackage.nodeId 0 ids rs p with
    prevWorkPackageResults := packageResults cfg connection workPackage rs }

theorem run_prepare_ok {cfg : SendConfig} {connection : Connection} {workPackage : NextWorkPackage}
    {d d' : SendDispatcher} {xs : List Nat} {chunks : Nat} (h : d.workRequestCtxPool.Holds xs)
    (hrun : (sendDataPrepareWorkRequests cfg connection workPackage).run d = .ok chunks d') :
    ∃ ids rest p, xs = ids ++ rest ∧
      ids.length = (packageRequests cfg d connection workPackage).length ∧ p.Holds rest ∧
      p.poolSize = d.workRequestCtxPool.poolSize ∧ chunks = ids.length ∧
      d' = d.prepare cfg connection workPackage ids p := by
  unfold sendDataPrepareWorkRequests at hrun
  simp only [EStateM.run_bind, EStateM.run_get] at hrun
  cases hloop : (prepareLoop cfg connection workPackage
      (cfg.ibSQSize.toNat - d.sendQueuePending workPackage.nodeId)
      ⟨workPackage.flowControlData, workPackage.posBackRel, 0, 0, 0, 0⟩).run d with
  | error e d₁ => rw [hloop] at hrun; cases hrun
  | ok l d₁ =>
    rw [hloop] at hrun
    obtain ⟨ids, rest, p, hxs, hlen, hp, hsize, rfl, hafter⟩ := run_prepareLoop_ok h hloop
    refine ⟨ids, rest, p, hxs, hlen, hp, hsize, ?_⟩
    have hpos := hafter.chunksPos
    have hbytes := hafter.totalBytesProcessed
    have hfc := hafter.fcData
    have hfcp := hafter.totalFcDataProcessed
    simp only [Nat.zero_add] at hpos hbytes hfc hfcp hlen
    have hfcp' : l.totalFcDataProcessed =
        if packageRequests cfg d connection workPackage = [] then 0
        else workPackage.flowControlData := by
      rw [hfcp, packageRequests]
      by_cases h0 : workPackage.flowControlData = 0 <;> simp [h0]
    -- the flow control balance is never off
    have hbalance : workPackage.flowControlData.toNat =
        l.fcData.toNat + l.totalFcDataProcessed.toNat := by
      rw [hfc, hfcp', packageRequests]
      split <;> simp
    simp only [EStateM.run_modify, ne_eq, hbalance, not_true, if_false, EStateM.run_bind,
      EStateM.run_pure, EStateM.Result.ok.injEq, hfc, hfcp', hbytes, hpos] at hrun
    exact ⟨hrun.1.symm.trans hlen.symm, hrun.2.symm⟩

/-- Preparing a package returns when there is a context for each request. -/
theorem run_prepare_isOk {cfg : SendConfig} {connection : Connection}
    {workPackage : NextWorkPackage} {d : SendDispatcher} {xs : List Nat}
    (h : d.workRequestCtxPool.Holds xs)
    (hlen : (packageRequests cfg d connection workPackage).length ≤ xs.length)
    (hsize : ∀ r ∈ packageRequests cfg d connection workPackage,
      r.sendSize ≤ cfg.maxRecvBufferSize) :
    ∃ chunks d',
      (sendDataPrepareWorkRequests cfg connection workPackage).run d = .ok chunks d' := by
  let l : PrepareState := ⟨workPackage.flowControlData, workPackage.posBackRel, 0, 0, 0, 0⟩
  obtain ⟨l', d₁, hloop⟩ := run_prepareLoop_isOk (l := l) h hlen hsize
  obtain ⟨-, -, -, -, -, -, -, -, hafter⟩ := run_prepareLoop_ok h hloop
  have hfc := hafter.fcData
  have hfcp := hafter.totalFcDataProcessed
  have hbalance : workPackage.flowControlData.toNat =
      l'.fcData.toNat + l'.totalFcDataProcessed.toNat := by
    rw [hfc, hfcp]
    by_cases h0 : workPackage.flowControlData = 0
    · simp [l, h0]
    · simp only [l, h0, or_false]
      split <;> simp
  unfold sendDataPrepareWorkRequests
  simp only [EStateM.run_bind, EStateM.run_get]
  rw [show (⟨workPackage.flowControlData, workPackage.posBackRel, 0, 0, 0, 0⟩ : PrepareState) = l
    from rfl, hloop]
  simp only [EStateM.run_modify, ne_eq, hbalance, not_true, if_false, EStateM.run_bind,
    EStateM.run_pure]
  exact ⟨_, _, rfl⟩

/-! ## Posting -/

/-- The part of a work request that posting leaves alone. -/
def IbvSendWr.unlinked (wr : IbvSendWr) : IbvSendWr :=
  { wr with next := none, signaled := false }

namespace SendWorld

theorem linkWorkRequests_apply (q : Nat → IbvSendWr) (n i : Nat) :
    linkWorkRequests q n i =
      if i + 1 < n then { q i with next := some (i + 1) } else q i := by
  rw [linkWorkRequests,
    Updates.foldl_update_range (fun i (wr : IbvSendWr) => { wr with next := some (i + 1) })]
  by_cases h : i + 1 < n
  · rw [if_pos h, if_pos (by omega)]
  · rw [if_neg h, if_neg (by omega)]

theorem signalWorkRequests_apply (q : Nat → IbvSendWr) (n i : Nat) :
    signalWorkRequests q n i = if i < n then { q i with signaled := true } else q i :=
  Updates.foldl_update_range (fun _ (wr : IbvSendWr) => { wr with signaled := true }) q n i

/-- The list of `n` chained work requests is the first `n` entries. -/
theorem workRequestList_eq {q : Nat → IbvSendWr} {n fuel i : Nat} (hi : i < n)
    (hfuel : n ≤ i + fuel)
    (hnext : ∀ j, j < n → (q j).next = if j + 1 < n then some (j + 1) else none) :
    workRequestList q fuel i = (List.range' i (n - i)).map q := by
  induction fuel generalizing i with
  | zero => omega
  | succ fuel ih =>
    have hlen : n - i = n - (i + 1) + 1 := by omega
    rw [workRequestList, hnext i hi, hlen, List.range'_succ, List.map_cons]
    by_cases hlast : i + 1 < n
    · simp only [if_pos hlast]
      rw [ih hlast (by omega)]
    · rw [if_neg hlast, Nat.sub_eq_zero_of_le (by omega)]
      rfl

/-- Posting hands over exactly the work requests just filled in, in order,
whatever the entries behind them hold. -/
theorem workRequestList_posted {q : Nat → IbvSendWr} {wrs : List IbvSendWr} {fuel : Nat}
    (hpos : 0 < wrs.length) (hfuel : wrs.length ≤ fuel)
    (hq : (List.range wrs.length).map q = wrs) (hwrs : ∀ wr ∈ wrs, wr.unlinked = wr) :
    (workRequestList (signalWorkRequests (linkWorkRequests q wrs.length) wrs.length) fuel 0).map
      IbvSendWr.unlinked = wrs := by
  have hentry : ∀ j, j < wrs.length → (q j).unlinked = q j := by
    intro j hj
    apply hwrs
    rw [← hq]
    exact List.mem_map_of_mem (List.mem_range.mpr hj)
  have happly : ∀ j, j < wrs.length →
      signalWorkRequests (linkWorkRequests q wrs.length) wrs.length j =
        { q j with
          next := if j + 1 < wrs.length then some (j + 1) else none
          signaled := true } := by
    intro j hj
    rw [signalWorkRequests_apply, if_pos hj, linkWorkRequests_apply]
    have hnone : (q j).next = none := by
      rw [← hentry j hj]
      rfl
    split
    · rfl
    · simp only [hnone]
  rw [workRequestList_eq hpos (by omega) (fun j hj => by rw [happly j hj]), Nat.sub_zero,
    ← List.range_eq_range', List.map_map]
  conv_rhs => rw [← hq]
  apply List.map_congr_left
  intro j hj
  have hj' := List.mem_range.mp hj
  rw [Function.comp_apply, happly j hj', ← hentry j hj']
  rfl

/-- The world after the list `posted` went to the queue pair of `connection`. -/
def post (w : SendWorld) (connection : Connection) (sendWrs : Nat → IbvSendWr)
    (posted : List IbvSendWr) : SendWorld :=
  { w with
    outstanding := w.outstanding ++ posted.map (PostedWr.mk connection.remoteNodeId)
    posted := posted.map (PostedWr.mk connection.remoteNodeId)
    history := w.history ++ posted.map (PostedWr.mk connection.remoteNodeId)
    dispatcher := { w.dispatcher with sendWrs := sendWrs }.addPending connection.remoteNodeId
      posted.length }

section
variable {cfg : SendConfig} {env : DispatchEnv} {connection : Connection}
  {workPackage : NextWorkPackage} {w w' : SendWorld}

theorem run_sendDataPostWorkRequests_ok {chunks : Nat} {wrs : List IbvSendWr}
    (hchunks : chunks = wrs.length) (hpos : 0 < chunks) (hfuel : chunks ≤ cfg.ibSQSize.toNat)
    (hq : (List.range wrs.length).map w.dispatcher.sendWrs = wrs)
    (hwrs : ∀ wr ∈ wrs, wr.unlinked = wr)
    (hrun : (sendDataPostWorkRequests cfg env connection chunks).run w = .ok () w') :
    env.postSend = .success ∧ ∃ sendWrs posted, posted.map IbvSendWr.unlinked = wrs ∧
      w' = w.post connection sendWrs posted := by
  subst hchunks
  have hposted := workRequestList_posted hpos hfuel hq hwrs
  unfold sendDataPostWorkRequests at hrun
  simp only [EStateM.run_bind, EStateM.run_modify, EStateM.run_get] at hrun
  cases hpost : env.postSend with
  | failure enomem accepted =>
    rw [hpost] at hrun
    simp only [EStateM.run_bind, EStateM.run_set, Exec.run_ite, Exec.run_throw] at hrun
    split at hrun <;> cases hrun
  | success =>
    rw [hpost] at hrun
    simp only [EStateM.run_set, EStateM.Result.ok.injEq, true_and] at hrun
    refine ⟨rfl, signalWorkRequests (linkWorkRequests w.dispatcher.sendWrs wrs.length) wrs.length,
      _, hposted, ?_⟩
    have hlen := congrArg List.length hposted
    rw [List.length_map] at hlen
    rw [← hrun, post, hlen]

/-- What a returning `__SendData` has done. -/
theorem run_sendData_ok {xs : List Nat} {ret : Bool}
    (h : w.dispatcher.workRequestCtxPool.Holds xs)
    (hrun : (sendData cfg env connection workPackage).run w = .ok ret w') :
    let rs := packageRequests cfg w.dispatcher connection workPackage
    ∃ ids rest p, xs = ids ++ rest ∧ ids.length = rs.length ∧ p.Holds rest ∧
      p.poolSize = w.dispatcher.workRequestCtxPool.poolSize ∧
      (ids = [] ∧ w' = { w with
          dispatcher := w.dispatcher.prepare cfg connection workPackage ids p } ∨
        env.postSend = .success ∧ ids ≠ [] ∧ ∃ sendWrs posted,
          posted.map IbvSendWr.unlinked =
            List.zipWith (fun ctx r => r.toWr connection.sourceNodeId ctx) ids rs ∧
          w' = { w with dispatcher := w.dispatcher.prepare cfg connection workPackage ids p }.post
            connection sendWrs posted) := by
  unfold sendData at hrun
  obtain ⟨chunks, w₁, hzoom, hrun⟩ := Exec.run_bind_eq_ok.mp hrun
  obtain ⟨d₁, hprep, rfl⟩ := Exec.run_zoom_eq_ok.mp hzoom
  obtain ⟨ids, rest, p, hxs, hlen, hp, hsize, rfl, rfl⟩ := run_prepare_ok h hprep
  refine ⟨ids, rest, p, hxs, hlen, hp, hsize, ?_⟩
  rw [Exec.run_ite] at hrun
  split at hrun
  · next hpos =>
    obtain ⟨_, w₂, hpost, hrun⟩ := Exec.run_bind_eq_ok.mp hrun
    simp only [EStateM.run_pure, EStateM.Result.ok.injEq] at hrun
    obtain ⟨-, rfl⟩ := hrun
    have hne : ids ≠ [] := List.length_pos_iff.mp hpos
    have hwrs : (List.zipWith (fun ctx r => SendRequest.toWr r connection.sourceNodeId ctx) ids
        (packageRequests cfg w.dispatcher connection workPackage)).length = ids.length := by
      rw [List.length_zipWith, hlen, Nat.min_self]
    obtain ⟨hsuccess, hposted⟩ := run_sendDataPostWorkRequests_ok hwrs.symm hpos
      (by
        rw [hlen, packageRequests]
        exact Nat.le_trans (length_requests_le _ _ _) (Nat.sub_le _ _))
      (by
        rw [hwrs, hlen, List.range_eq_range']
        exact Updates.map_updateAll List.nodup_range' (by simp [hwrs, hlen]))
      (by
        intro wr hwr
        obtain ⟨i, hi, rfl⟩ := List.getElem_of_mem hwr
        rw [List.getElem_zipWith]
        rfl)
      hpost
    exact Or.inr ⟨hsuccess, hne, hposted⟩
  · next hzero =>
    simp only [EStateM.run_pure, EStateM.Result.ok.injEq] at hrun
    obtain ⟨-, rfl⟩ := hrun
    exact Or.inl ⟨List.length_eq_zero_iff.mp (by omega), rfl⟩

end

/-! ### What was posted for a package -/

section
variable {posted : List IbvSendWr} {ids : List Nat} {rs : List SendRequest} {sourceNodeId : NodeId}

theorem map_wrId_posted (hlen : ids.length = rs.length)
    (h : posted.map IbvSendWr.unlinked =
      List.zipWith (fun ctx r => r.toWr sourceNodeId ctx) ids rs) :
    posted.map IbvSendWr.wrId = ids := by
  have hmap := congrArg (List.map IbvSendWr.wrId) h
  rw [List.map_map, List.map_zipWith] at hmap
  rw [show posted.map IbvSendWr.wrId = posted.map (IbvSendWr.wrId ∘ IbvSendWr.unlinked) from rfl,
    hmap]
  apply List.ext_getElem
  · rw [List.length_zipWith, hlen, Nat.min_self]
  · intro i h1 h2
    rw [List.getElem_zipWith]
    rfl

/-- What a posted work request carries is what its request was built with. -/
theorem map_posted {β : Type} {f : IbvSendWr → β} {g : SendRequest → β}
    (hlen : ids.length = rs.length)
    (h : posted.map IbvSendWr.unlinked =
      List.zipWith (fun ctx r => r.toWr sourceNodeId ctx) ids rs)
    (hunlinked : ∀ wr, f wr.unlinked = f wr) (hwr : ∀ ctx r, f (r.toWr sourceNodeId ctx) = g r) :
    posted.map f = rs.map g := by
  have hmap := congrArg (List.map f) h
  rw [List.map_map, List.map_zipWith] at hmap
  rw [show f ∘ IbvSendWr.unlinked = f from funext hunlinked] at hmap
  rw [hmap]
  apply List.ext_getElem
  · rw [List.length_zipWith, hlen, Nat.min_self, List.length_map]
  · intro i h1 h2
    rw [List.getElem_zipWith, List.getElem_map, hwr]

end

/-! ## Polling -/

/-- What `ibv_poll_cq` delivers in this call, and what stays outstanding. -/
def polled (cfg : SendConfig) (env : DispatchEnv) (w : SendWorld) :
    List (PostedWr × IbvWcStatus) × List PostedWr :=
  pollOutstanding w.outstanding ((env.pollCq.getD []).take cfg.ibSharedSCQSize.toNat)

/-- The loop over the delivered completions, with its outcome. -/
def completed (cfg : SendConfig) (env : DispatchEnv) (w : SendWorld) :
    EStateM.Result Exception SendDispatcher Unit :=
  (SendDispatcher.completeAll ((w.polled cfg env).1.map fun c => ⟨c.1.wr.wrId, c.2⟩)).run
    w.dispatcher

/-- The world after a poll that left the dispatcher in state `d`. -/
def afterPoll (cfg : SendConfig) (env : DispatchEnv) (w : SendWorld) (d : SendDispatcher) :
    SendWorld :=
  { w with outstanding := (w.polled cfg env).2, dispatcher := d }

/-- A poll that returns: nothing is pending, or the loop ends. -/
inductive Polls (cfg : SendConfig) (env : DispatchEnv) (w : SendWorld) : SendWorld → Prop
  | nothing (h : w.dispatcher.completionsPending = 0) : Polls cfg env w w
  | all {d : SendDispatcher} (h : w.completed cfg env = .ok () d) :
    Polls cfg env w (w.afterPoll cfg env d)

section
variable {cfg : SendConfig} {env : DispatchEnv} {w w' : SendWorld}

theorem run_pollCompletions : (pollCompletions cfg env).run w =
    if w.dispatcher.completionsPending > 0 then
      if env.pollCq = none then .error (.formatError "argument index out of range") w
      else
        match w.completed cfg env with
        | .ok _ d => .ok (decide (d.completionsPending > 0)) (w.afterPoll cfg env d)
        | .error e d => .error e (w.afterPoll cfg env d)
    else .ok false w := by
  simp only [pollCompletions, EStateM.run_bind, EStateM.run_get, Exec.run_ite]
  split
  · cases hcq : env.pollCq with
    | none => rfl
    | some wcs =>
      simp only [reduceCtorEq, if_false, EStateM.run_bind, EStateM.run_set, onDispatcher,
        Exec.run_zoom, completed, afterPoll, polled, hcq, Option.getD_some]
      generalize (SendDispatcher.completeAll _).run w.dispatcher = result
      cases result <;> rfl
  · rfl

theorem run_pollCompletions_ok {ret : Bool}
    (hrun : (pollCompletions cfg env).run w = .ok ret w') :
    Polls cfg env w w' := by
  rw [run_pollCompletions] at hrun
  split at hrun
  · split at hrun
    · cases hrun
    · cases hc : w.completed cfg env with
      | ok u d =>
        rw [hc] at hrun
        cases hrun
        exact .all hc
      | error e d => rw [hc] at hrun; cases hrun
  · cases hrun
    exact .nothing (by omega)

theorem run_pollCompletions_disconnected {nodeId : NodeId}
    (hrun : (pollCompletions cfg env).run w = .error (.disconnected nodeId) w') :
    ∃ d, w.completed cfg env = .error (.disconnected nodeId) d ∧ w' = w.afterPoll cfg env d := by
  rw [run_pollCompletions] at hrun
  split at hrun
  · split at hrun
    · cases hrun
    · cases hc : w.completed cfg env with
      | ok u d => rw [hc] at hrun; cases hrun
      | error e d =>
        rw [hc] at hrun
        cases hrun
        exact ⟨d, rfl, rfl⟩
  · cases hrun

end

/-! ## What is thrown where -/

/-- The exceptions `Dispatch` catches. -/
def Caught : Exception → Prop
  | .timeout _ | .disconnected _ => True
  | _ => False

theorem pop_throws : Exec.Throws (fun e => ¬ Caught e) SendWorkRequestCtxPool.pop := by
  refine Exec.Throws.get.bind fun p => ?_
  refine Exec.Throws.ite (Exec.Throws.throw id) ?_
  split
  · exact Exec.Throws.throw id
  · exact (Exec.Throws.set _).bind fun _ => Exec.Throws.pure _

theorem fillWorkRequest_throws (connection : Connection) (nodeId : NodeId) (chunksPos : Nat)
    (r : SendRequest) :
    Exec.Throws (fun e => ¬ Caught e) (fillWorkRequest connection nodeId chunksPos r) :=
  pop_throws.zoom.bind fun _ => Exec.Throws.modify _

theorem checkLength_throws (cfg : SendConfig) (r : SendRequest) :
    Exec.Throws (fun e => ¬ Caught e) (checkLength cfg r) :=
  Exec.Throws.ite (Exec.Throws.throw id) (Exec.Throws.pure _)

theorem prepareLoop_throws (cfg : SendConfig) (connection : Connection)
    (workPackage : NextWorkPackage) (room : Nat) (l : PrepareState) :
    Exec.Throws (fun e => ¬ Caught e) (prepareLoop cfg connection workPackage room l) := by
  induction room generalizing l with
  | zero => exact Exec.Throws.pure _
  | succ room ih =>
    rw [prepareLoop]
    refine Exec.Throws.ite ?_ (Exec.Throws.pure _)
    refine Exec.Throws.ite ?_ ?_
    · exact (fillWorkRequest_throws _ _ _ _).bind fun _ => Exec.Throws.pure _
    · refine Exec.Throws.bind ?_ fun _ => Exec.Throws.ite (Exec.Throws.pure _) (ih _)
      rw [fillDataRequest]
      refine Exec.Throws.ite ?_ ?_
      · exact (fillWorkRequest_throws _ _ _ _).bind fun _ => checkLength_throws _ _
      · exact (checkLength_throws _ _).bind fun _ => fillWorkRequest_throws _ _ _ _

theorem sendData_throws (cfg : SendConfig) (env : DispatchEnv) (connection : Connection)
    (workPackage : NextWorkPackage) :
    Exec.Throws (fun e => ¬ Caught e) (sendData cfg env connection workPackage) := by
  have hprep : Exec.Throws (fun e => ¬ Caught e)
      (sendDataPrepareWorkRequests cfg connection workPackage) := by
    refine Exec.Throws.get.bind fun d => ?_
    refine (prepareLoop_throws _ _ _ _ _).bind fun l => ?_
    refine (Exec.Throws.modify _).bind fun _ => ?_
    have hend : Exec.Throws (fun e => ¬ Caught e) (do
        modify fun d : SendDispatcher =>
          { d with prevWorkPackageResults := { d.prevWorkPackageResults with
              numBytesPosted := l.totalBytesProcessed
              numBytesNotPosted := cfg.arith.sub
                (totalBytesToProcess cfg connection.sendBufferSize workPackage.posBackRel
                  workPackage.posFrontRel) l.totalBytesProcessed } }
        pure l.chunksPos) := (Exec.Throws.modify _).bind fun _ => Exec.Throws.pure _
    exact Exec.Throws.ite ((Exec.Throws.throw id).bind fun _ => hend) hend
  have hpost : ∀ chunks, Exec.Throws (fun e => ¬ Caught e)
      (sendDataPostWorkRequests cfg env connection chunks) := by
    intro chunks
    refine (Exec.Throws.modify _).bind fun _ => Exec.Throws.get.bind fun w => ?_
    cases env.postSend with
    | failure enomem accepted =>
      exact (Exec.Throws.set _).bind fun _ =>
        Exec.Throws.ite (Exec.Throws.throw id) (Exec.Throws.throw id)
    | success => exact Exec.Throws.set _
  refine hprep.zoom.bind fun chunks => Exec.Throws.ite ?_ (Exec.Throws.pure _)
  exact (hpost chunks).bind fun _ => Exec.Throws.pure _

theorem complete_throws (wc : IbvWc) :
    Exec.Throws (fun e => ∀ reason, e ≠ .timeout reason) (SendDispatcher.complete wc) := by
  have hpush : Exec.Throws (fun e => ∀ reason, e ≠ .timeout reason)
      (SendDispatcher.pushCtx wc.wrId) := by
    apply Exec.Throws.zoom
    refine Exec.Throws.get.bind fun p => ?_
    refine Exec.Throws.ite (Exec.Throws.throw (by simp)) ?_
    exact Exec.Throws.ite (Exec.Throws.throw (by simp)) (Exec.Throws.set _)
  refine Exec.Throws.bind ?_ fun _ => Exec.Throws.bind ?_ fun _ => Exec.Throws.modify _
  · refine Exec.Throws.get.bind fun d => ?_
    simp only
    split
    · exact Exec.Throws.set _
    · exact Exec.Throws.ite (Exec.Throws.set _) (Exec.Throws.throw (by simp))
    · exact Exec.Throws.throw (by simp)
    · refine Exec.Throws.ite (Exec.Throws.throw (by simp)) ?_
      exact hpush.bind fun _ => Exec.Throws.throw (by simp)
  · exact Exec.Throws.tryCatch fun _ => Exec.Throws.throw (by simp)

theorem completeAll_throws (wcs : List IbvWc) :
    Exec.Throws (fun e => ∀ reason, e ≠ .timeout reason) (SendDispatcher.completeAll wcs) := by
  induction wcs with
  | nil => exact Exec.Throws.pure _
  | cons wc wcs ih => exact (complete_throws wc).bind fun _ => ih

theorem pollCompletions_throws (cfg : SendConfig) (env : DispatchEnv) :
    Exec.Throws (fun e => ∀ reason, e ≠ .timeout reason) (pollCompletions cfg env) := by
  intro w e w' hrun
  rw [run_pollCompletions] at hrun
  split at hrun
  · split at hrun
    · cases hrun
      simp
    · cases hc : w.completed cfg env with
      | ok u d => rw [hc] at hrun; cases hrun
      | error e' d =>
        rw [hc] at hrun
        cases hrun
        exact completeAll_throws _ _ _ _ hc
  · cases hrun

/-! ## The cases of a call -/

/-- `GetConnection` returned `connection`. -/
def connect (w : SendWorld) (connection : Connection) : SendWorld :=
  { w with
    connection := some connection
    calls := w.calls ++ [.getConnection connection.remoteNodeId] }

/-- A `DisconnectedException` for `nodeId` was handled. -/
def disconnect (w : SendWorld) (nodeId : NodeId) : SendWorld :=
  { w with
    calls := w.calls ++ (w.connection.toList.map fun c => .returnConnection c.remoteNodeId) ++
      [.closeConnection nodeId true]
    dispatcher := w.dispatcher.handleDisconnect }

/-- The part of the `try` block before the poll. -/
inductive Sends (cfg : SendConfig) (env : DispatchEnv) (workPackage : NextWorkPackage)
    (w : SendWorld) : SendWorld → Prop
  | idle (h : workPackage.nodeId = nodeIdInvalid) : Sends cfg env workPackage w w
  | sent {c connection : Connection} {ret : Bool} {w₁ : SendWorld}
    (h : workPackage.nodeId ≠ nodeIdInvalid) (hc : env.getConnection = .ok c)
    (hconnection : connection = { c with remoteNodeId := workPackage.nodeId })
    (hrun : (sendData cfg env connection workPackage).run (w.connect connection) = .ok ret w₁) :
    Sends cfg env workPackage w
      { w₁ with calls := w₁.calls ++ [.returnConnection workPackage.nodeId] }

section
variable {cfg : SendConfig} {env : DispatchEnv} {workPackage : NextWorkPackage} {w w' : SendWorld}

theorem run_catchDispatch_disconnected {nodeId : NodeId} :
    (catchDispatch cfg env (.disconnected nodeId)).run w = .ok true (w.disconnect nodeId) := by
  simp only [catchDispatch, EStateM.run_bind, EStateM.run_get]
  cases hc : w.connection <;>
    simp only [call, disconnect, hc, EStateM.run_bind, EStateM.run_modify, EStateM.run_pure,
      Option.toList_none, Option.toList_some, List.map_nil, List.map_cons, List.append_nil]

/-- How the `try` block ends if `Dispatch` returns. -/
theorem run_tryDispatch {r : EStateM.Result Exception SendWorld Bool}
    (hr : (tryDispatch cfg env workPackage).run w = r) :
    (∃ w₁, Sends cfg env workPackage w w₁ ∧
      ∃ f : Bool → Bool, r = match (pollCompletions cfg env).run w₁ with
        | .ok b w₂ => .ok (f b) w₂
        | .error e w₂ => .error e w₂) ∨
    (workPackage.nodeId ≠ nodeIdInvalid ∧ ∃ e, env.getConnection = .error e ∧ r = .error e w) ∨
    ∃ e w₁, r = .error e w₁ ∧ ¬ Caught e := by
  rw [tryDispatch, Exec.run_ite] at hr
  split at hr
  · next hidle =>
    refine Or.inl ⟨w, .idle hidle, id, ?_⟩
    rw [← hr]
    cases (pollCompletions cfg env).run w <;> rfl
  · next hne =>
    cases hc : env.getConnection with
    | error e =>
      right; left
      refine ⟨hne, e, rfl, ?_⟩
      rw [← hr, EStateM.run_bind, getConnection, hc]
      rfl
    | ok c =>
      have hget : (getConnection env workPackage.nodeId).run w =
          .ok { c with remoteNodeId := workPackage.nodeId }
            (w.connect { c with remoteNodeId := workPackage.nodeId }) := by
        rw [getConnection, hc]
        rfl
      simp only [EStateM.run_bind, hget] at hr
      cases hsend : (sendData cfg env { c with remoteNodeId := workPackage.nodeId }
          workPackage).run (w.connect { c with remoteNodeId := workPackage.nodeId }) with
      | ok ret w₁ =>
        rw [hsend] at hr
        refine Or.inl ⟨_, .sent hne hc rfl hsend, fun b => b || ret, ?_⟩
        rw [← hr]
        simp only [call, EStateM.run_modify]
        generalize (pollCompletions cfg env).run _ = result
        cases result <;> rfl
      | error e w₁ =>
        rw [hsend] at hr
        exact Or.inr (Or.inr ⟨e, w₁, hr.symm, sendData_throws cfg env _ workPackage _ _ _ hsend⟩)

theorem step_cases (h : step cfg w env = some w') :
    ∃ workPackage, env.workPackage = some workPackage ∧
      ((∃ w₁, Sends cfg env workPackage w.beginDispatch w₁ ∧
        (Polls cfg env w₁ w' ∨ ∃ nodeId d, w₁.completed cfg env = .error (.disconnected nodeId) d ∧
          w' = (w₁.afterPoll cfg env d).disconnect nodeId)) ∨
      workPackage.nodeId ≠ nodeIdInvalid ∧
        ((∃ reason, env.getConnection = .error (.timeout reason)) ∧
          Polls cfg env w.beginDispatch w' ∨
        ∃ nodeId, env.getConnection = .error (.disconnected nodeId) ∧
          w' = w.beginDispatch.disconnect nodeId)) := by
  unfold step dispatch at h
  cases hwp : env.workPackage with
  | none => rw [hwp] at h; cases h
  | some workPackage =>
    rw [hwp] at h
    refine ⟨workPackage, rfl, ?_⟩
    simp only [EStateM.run_bind, EStateM.run_modify, Exec.run_tryCatch] at h
    rcases run_tryDispatch (rfl : (tryDispatch cfg env workPackage).run w.beginDispatch = _) with
      ⟨w₁, hsends, f, hr⟩ | ⟨hne, e, hc, hr⟩ | ⟨e, w₁, hr, he⟩
    · rw [hr] at h
      refine Or.inl ⟨w₁, hsends, ?_⟩
      cases hp : (pollCompletions cfg env).run w₁ with
      | ok b w₂ =>
        rw [hp] at h
        obtain rfl := Option.some.inj h
        exact Or.inl (run_pollCompletions_ok hp)
      | error e w₂ =>
        rw [hp] at h
        simp only at h
        cases e with
        | disconnected nodeId =>
          rw [run_catchDispatch_disconnected] at h
          obtain rfl := Option.some.inj h
          obtain ⟨d, hd, rfl⟩ := run_pollCompletions_disconnected hp
          exact Or.inr ⟨nodeId, d, hd, rfl⟩
        | timeout reason => exact absurd rfl (pollCompletions_throws cfg env _ _ _ hp reason)
        | illegalState | poolIllegalState | ibException | ibQueueFull | invalidNodeId
        | nodeNotAvailable | formatError => cases h
    · rw [hr] at h
      simp only at h
      refine Or.inr ⟨hne, ?_⟩
      cases e with
      | disconnected nodeId =>
        rw [run_catchDispatch_disconnected] at h
        obtain rfl := Option.some.inj h
        exact Or.inr ⟨nodeId, hc, rfl⟩
      | timeout reason =>
        simp only [catchDispatch] at h
        cases hp : (pollCompletions cfg env).run w.beginDispatch with
        | ok b w₂ =>
          rw [hp] at h
          obtain rfl := Option.some.inj h
          exact Or.inl ⟨⟨reason, hc⟩, run_pollCompletions_ok hp⟩
        | error e w₂ => rw [hp] at h; cases h
      | illegalState | poolIllegalState | ibException | ibQueueFull | invalidNodeId
      | nodeNotAvailable | formatError => cases h
    · rw [hr] at h
      simp only at h
      cases e with
      | disconnected | timeout => exact absurd trivial he
      | illegalState | poolIllegalState | ibException | ibQueueFull | invalidNodeId
      | nodeNotAvailable | formatError => cases h

end

end SendWorld

end Ibdxnet.Msgrc
