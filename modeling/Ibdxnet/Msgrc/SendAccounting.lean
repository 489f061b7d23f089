import Ibdxnet.Lib.Sums
import Ibdxnet.Msgrc.SendSteps
import Mathlib.Data.FinEnum

/-!
# The counters of the send dispatcher

`m_completionsPending`, `m_sendQueuePending` and the context pool all count the
work requests on the send queues:

    m_completionsPending    = posted and not yet polled
    m_sendQueuePending[n]   = those of them to node n
    contexts out of the pool = posted and not yet polled

`Accounts` is this together with what keeps it: the contexts of outstanding
work requests are distinct, not in the pool, and name the right node.  Posting
and every completion of the loop keep it (`Accounts.sends`,
`Accounts.complete`), with one exception: the branch of
`IBV_WC_RETRY_EXC_ERR` pushes the context and throws, past both decrements and
out of the batch.
-/

namespace Ibdxnet.Msgrc

open Ibdxnet.Con Sys

/-- Every work request goes to one node. -/
theorem PostedWr.sum_countP (l : List PostedWr) :
    ∑ n : NodeId, l.countP (fun p => p.nodeId = n) = l.length := by
  induction l with
  | nil => simp
  | cons p l ih =>
    simp only [List.countP_cons, Finset.sum_add_distrib, ih, List.length_cons]
    simp

theorem PostedWr.countP_post (outstanding : List PostedWr) (posted : List IbvSendWr)
    (nodeId n : NodeId) :
    (outstanding ++ posted.map (PostedWr.mk nodeId)).countP (fun q => q.nodeId = n) =
      outstanding.countP (fun q => q.nodeId = n) + if n = nodeId then posted.length else 0 := by
  rw [List.countP_append, List.countP_map]
  congr 1
  split
  · next hn => simp [Function.comp_def, hn]
  · next hn => simp [Function.comp_def, Ne.symm hn]

/-- The posted work requests took their contexts from the front of the pool. -/
theorem nodup_post {ids rest : List Nat} {outstanding : List PostedWr} {posted : List IbvSendWr}
    (nodeId : NodeId) (hids : posted.map IbvSendWr.wrId = ids)
    (h : (ids ++ rest ++ outstanding.map fun p => p.wr.wrId).Nodup) :
    (rest ++ (outstanding ++ posted.map (PostedWr.mk nodeId)).map fun p => p.wr.wrId).Nodup := by
  have hcomp : (fun q : PostedWr => q.wr.wrId) ∘ PostedWr.mk nodeId = IbvSendWr.wrId := rfl
  rw [List.map_append, List.map_map, hcomp, hids]
  rw [List.append_assoc] at h
  exact (List.perm_append_comm.trans (by rw [List.append_assoc])).nodup h

/-- The contexts of the posted work requests name the node they go to; those of
the others are as before. -/
theorem target_post {cfg : SendConfig} {d : SendDispatcher} {connection : Connection}
    {workPackage : NextWorkPackage} {ids rest : List Nat} {outstanding : List PostedWr}
    {posted : List IbvSendWr} (p : SendWorkRequestCtxPool)
    (h : (ids ++ rest ++ outstanding.map fun p => p.wr.wrId).Nodup)
    (htarget : ∀ q ∈ outstanding, (d.ctxs q.wr.wrId).targetNodeId = q.nodeId)
    (hlen : ids.length = (packageRequests cfg d connection workPackage).length)
    (hnode : connection.remoteNodeId = workPackage.nodeId)
    (hids : posted.map IbvSendWr.wrId = ids) {q : PostedWr}
    (hq : q ∈ outstanding ++ posted.map (PostedWr.mk connection.remoteNodeId)) :
    ((d.prepare cfg connection workPackage ids p).ctxs q.wr.wrId).targetNodeId = q.nodeId := by
  rw [List.append_assoc] at h
  obtain ⟨hids', -, hfresh⟩ := List.nodup_append.mp h
  rcases List.mem_append.mp hq with hq | hq
  · have hnotMem : q.wr.wrId ∉ ids := fun hc =>
      hfresh _ hc _ (List.mem_append_right _ (List.mem_map_of_mem hq)) rfl
    rw [show (d.prepare cfg connection workPackage ids p).ctxs q.wr.wrId = d.ctxs q.wr.wrId from
      Updates.updateAll_of_notMem hnotMem]
    exact htarget q hq
  · obtain ⟨wr, hwr, rfl⟩ := List.mem_map.mp hq
    have hmem : wr.wrId ∈ ids := by
      rw [← hids]
      exact List.mem_map_of_mem hwr
    have hset : ids.map (d.prepare cfg connection workPackage ids p).ctxs =
        (packageRequests cfg d connection workPackage).map
          fun r => r.toCtx workPackage.nodeId :=
      Updates.map_updateAll hids' (by rw [List.length_map]; exact hlen)
    have hctx : (d.prepare cfg connection workPackage ids p).ctxs wr.wrId ∈
        (packageRequests cfg d connection workPackage).map
          fun r => r.toCtx workPackage.nodeId := by
      rw [← hset]
      exact List.mem_map_of_mem hmem
    obtain ⟨r, -, hr⟩ := List.mem_map.mp hctx
    change ((d.prepare cfg connection workPackage ids p).ctxs wr.wrId).targetNodeId = _
    rw [← hr, hnode]
    rfl

/-- The counters agree with the outstanding work requests; `free` are the contexts in the pool. -/
structure Accounts (cfg : SendConfig) (d : SendDispatcher) (outstanding : List PostedWr)
    (free : List Nat) : Prop where
  holds : d.workRequestCtxPool.Holds free
  poolSize : d.workRequestCtxPool.poolSize = cfg.ibSharedSCQSize.toNat
  length : free.length + outstanding.length = cfg.ibSharedSCQSize.toNat
  nodup : (free ++ outstanding.map fun p => p.wr.wrId).Nodup
  target : ∀ p ∈ outstanding, (d.ctxs p.wr.wrId).targetNodeId = p.nodeId
  completionsPending : d.completionsPending = outstanding.length
  sendQueuePending : ∀ n, d.sendQueuePending n = outstanding.countP fun p => p.nodeId = n
  room : ∀ n, d.sendQueuePending n ≤ cfg.ibSQSize.toNat

namespace Accounts

variable {cfg : SendConfig} {d : SendDispatcher} {outstanding : List PostedWr} {free : List Nat}

theorem init (cfg : SendConfig) :
    Accounts cfg (.init cfg) [] (List.range cfg.ibSharedSCQSize.toNat) where
  holds := SendWorkRequestCtxPool.init_holds _
  poolSize := rfl
  length := by simp
  nodup := by simpa using List.nodup_range
  target p hp := by cases hp
  completionsPending := rfl
  sendQueuePending _ := rfl
  room _ := Nat.zero_le _

/-- The order of the outstanding work requests does not matter. -/
theorem perm {outstanding' : List PostedWr} (h : Accounts cfg d outstanding free)
    (hp : outstanding.Perm outstanding') : Accounts cfg d outstanding' free where
  holds := h.holds
  poolSize := h.poolSize
  length := by rw [← hp.length_eq]; exact h.length
  nodup := ((List.Perm.refl free).append (hp.map _)).nodup_iff.mp h.nodup
  target p hp' := h.target p (hp.mem_iff.mpr hp')
  completionsPending := by rw [← hp.length_eq]; exact h.completionsPending
  sendQueuePending n := by rw [← hp.countP_eq]; exact h.sendQueuePending n
  room := h.room

theorem length_lt (h : Accounts cfg d outstanding free) : outstanding.length < 2 ^ 16 := by
  have h1 := h.length
  have h2 := cfg.ibSharedSCQSize.toNat_lt
  omega

/-- The contexts out of the pool, by the pool's own counter. -/
theorem nonReturnedBuffers (h : Accounts cfg d outstanding free) :
    d.workRequestCtxPool.nonReturnedBuffers = outstanding.length := by
  have h1 := h.holds.length_add
  have h2 := h.length
  rw [h.poolSize] at h1
  omega

/-- Every outstanding work request is counted for one node. -/
theorem sum_sendQueuePending (h : Accounts cfg d outstanding free) :
    ∑ n, d.sendQueuePending n = outstanding.length := by
  rw [← PostedWr.sum_countP outstanding]
  exact Finset.sum_congr rfl fun n _ => h.sendQueuePending n

/-! ## Posting -/

/-- Only the pool, the contexts and the two counters matter. -/
theorem congr {d' : SendDispatcher} (h : Accounts cfg d outstanding free)
    (hpool : d'.workRequestCtxPool = d.workRequestCtxPool) (hctxs : d'.ctxs = d.ctxs)
    (hcompletions : d'.completionsPending = d.completionsPending)
    (hqueue : d'.sendQueuePending = d.sendQueuePending) : Accounts cfg d' outstanding free where
  holds := by rw [hpool]; exact h.holds
  poolSize := by rw [hpool]; exact h.poolSize
  length := h.length
  nodup := h.nodup
  target := by rw [hctxs]; exact h.target
  completionsPending := by rw [hcompletions]; exact h.completionsPending
  sendQueuePending := by rw [hqueue]; exact h.sendQueuePending
  room := by rw [hqueue]; exact h.room

/-- Posting keeps the counters in step. -/
theorem post {w : SendWorld} {connection : Connection} {workPackage : NextWorkPackage}
    {ids rest : List Nat} {p : SendWorkRequestCtxPool} {sendWrs : Nat → IbvSendWr}
    {posted : List IbvSendWr} (h : Accounts cfg w.dispatcher w.outstanding (ids ++ rest))
    (hlen : ids.length = (packageRequests cfg w.dispatcher connection workPackage).length)
    (hnode : connection.remoteNodeId = workPackage.nodeId) (hp : p.Holds rest)
    (hsize : p.poolSize = w.dispatcher.workRequestCtxPool.poolSize)
    (hposted : posted.map IbvSendWr.unlinked = List.zipWith
      (fun ctx r => r.toWr connection.sourceNodeId ctx) ids
      (packageRequests cfg w.dispatcher connection workPackage)) :
    let w' := { w with
      dispatcher := w.dispatcher.prepare cfg connection workPackage ids p }.post connection sendWrs
        posted
    Accounts cfg w'.dispatcher w'.outstanding rest := by
  have hids := SendWorld.map_wrId_posted hlen hposted
  have hposlen : posted.length = ids.length := by rw [← hids, List.length_map]
  have hroom : ids.length ≤
      cfg.ibSQSize.toNat - w.dispatcher.sendQueuePending workPackage.nodeId := by
    rw [hlen]
    exact length_requests_le _ _ _
  have hnodup := h.nodup
  have hl := h.length
  have h16 := cfg.ibSharedSCQSize.toNat_lt
  have hsq := cfg.ibSQSize.toNat_lt
  rw [List.length_append] at hl
  refine ⟨hp, hsize.trans h.poolSize, ?_, nodup_post _ hids hnodup,
    fun q hq => target_post p hnodup h.target hlen hnode hids hq, ?_, ?_, ?_⟩
  · simp only [SendWorld.post, List.length_append, List.length_map]
    omega
  · have hc := h.completionsPending
    simp only [SendWorld.post, SendDispatcher.addPending, SendDispatcher.prepare,
      SendDispatcher.store, List.length_append, List.length_map, hc]
    exact Nat.mod_eq_of_lt (by omega)
  · intro n
    have hq := h.sendQueuePending n
    have hr := h.room n
    simp only [SendWorld.post, SendDispatcher.addPending, SendDispatcher.prepare,
      SendDispatcher.store, PostedWr.countP_post, Function.update_apply]
    split
    · next hn =>
      subst hn
      rw [← hnode] at hroom
      rw [Nat.mod_eq_of_lt (by omega), hq]
    · rw [hq, Nat.add_zero]
  · intro n
    have hr := h.room n
    simp only [SendWorld.post, SendDispatcher.addPending, SendDispatcher.prepare,
      SendDispatcher.store, Function.update_apply]
    split
    · next hn =>
      subst hn
      rw [← hnode] at hroom
      rw [Nat.mod_eq_of_lt (by omega)]
      omega
    · exact hr

/-! ## Completions -/

theorem dec16_succ {k : Nat} (h : k < 2 ^ 16) : dec16 (k + 1) = k := by
  unfold dec16
  omega

theorem dec32_succ {k : Nat} (h : k < 2 ^ 32) : dec32 (k + 1) = k := by
  unfold dec32
  omega

/-- A round that goes on has counted the completion down, whatever its status. -/
theorem run_completeStatus_ok {d' : SendDispatcher} {wc : IbvWc}
    (hrun : (SendDispatcher.completeStatus wc).run d = .ok () d') :
    wc.status ≠ .retryExcErr ∧ d'.workRequestCtxPool = d.workRequestCtxPool ∧ d'.ctxs = d.ctxs ∧
      d'.completionsPending = dec32 d.completionsPending ∧
      d'.sendQueuePending = Function.update d.sendQueuePending (d.ctxs wc.wrId).targetNodeId
        (dec16 (d.sendQueuePending (d.ctxs wc.wrId).targetNodeId)) := by
  simp only [SendDispatcher.completeStatus, EStateM.run_bind, EStateM.run_get] at hrun
  cases hstatus : wc.status with
  | success =>
    rw [hstatus] at hrun
    cases hrun
    exact ⟨by simp, rfl, rfl, rfl, rfl⟩
  | wrFlushErr =>
    rw [hstatus] at hrun
    simp only [Exec.run_ite, EStateM.run_set] at hrun
    split at hrun
    · obtain rfl := (EStateM.Result.ok.inj hrun).2
      exact ⟨by simp, by simp, by simp, rfl, rfl⟩
    · cases hrun
  | other => rw [hstatus] at hrun; cases hrun
  | retryExcErr =>
    rw [hstatus] at hrun
    simp only [Exec.run_ite] at hrun
    split at hrun
    · cases hrun
    · obtain ⟨_, _, -, hthrow⟩ := Exec.run_bind_eq_ok.mp hrun
      cases hthrow

/-- A completion that is processed to the end takes its work request out of the count. -/
theorem complete {p : PostedWr} {status : IbvWcStatus} {d' : SendDispatcher}
    (h : Accounts cfg d (p :: outstanding) free)
    (hrun : (SendDispatcher.complete ⟨p.wr.wrId, status⟩).run d = .ok () d') :
    Accounts cfg d' outstanding (free ++ [p.wr.wrId]) := by
  obtain ⟨_, d₁, hstatus, hrun⟩ := Exec.run_bind_eq_ok.mp hrun
  obtain ⟨-, hpool, hctxs, hcompletions, hqueue⟩ := run_completeStatus_ok hstatus
  have hl := h.length
  have h16 := cfg.ibSharedSCQSize.toNat_lt
  have hsq := cfg.ibSQSize.toNat_lt
  rw [List.length_cons] at hl
  obtain ⟨q, hpush, hq, hsize⟩ := h.holds.run_push (by rw [h.poolSize]; omega) p.wr.wrId
  have hrunpush : (SendDispatcher.pushCtx p.wr.wrId).run d₁ =
      .ok () { d₁ with workRequestCtxPool := q } := by
    rw [SendDispatcher.pushCtx, Exec.run_zoom, hpool, hpush]
  simp only [EStateM.run_bind, Exec.run_tryCatch, hrunpush, EStateM.run_modify,
    EStateM.Result.ok.injEq, true_and] at hrun
  subst hrun
  have htarget := h.target p List.mem_cons_self
  simp only at hqueue
  rw [htarget] at hqueue
  refine ⟨hq, hsize.trans h.poolSize, ?_, ?_, ?_, ?_, ?_, ?_⟩
  · rw [List.length_append, List.length_singleton]
    omega
  · have hnodup := h.nodup
    rw [List.map_cons, List.append_cons] at hnodup
    exact hnodup
  · intro r hr
    simp only [hctxs]
    exact h.target r (List.mem_cons_of_mem p hr)
  · simp only [hcompletions]
    rw [h.completionsPending, List.length_cons, dec32_succ (by omega)]
  · intro n
    have hn := h.sendQueuePending n
    have hp := h.sendQueuePending p.nodeId
    have hr := h.room p.nodeId
    simp only [List.countP_cons, decide_eq_true_eq, if_true] at hn hp
    simp only [hqueue, Function.update_apply]
    split
    · next heq =>
      subst heq
      rw [hp, dec16_succ (by omega)]
    · next hne =>
      rw [if_neg (Ne.symm hne)] at hn
      rw [hn, Nat.add_zero]
  · intro n
    have hp := h.sendQueuePending p.nodeId
    have hr := h.room p.nodeId
    simp only [hqueue, Function.update_apply]
    split
    · simp only [List.countP_cons, decide_true, if_true] at hp
      rw [hp, dec16_succ (by omega)]
      omega
    · exact h.room n

theorem completeAll {polled : List (PostedWr × IbvWcStatus)} {d' : SendDispatcher}
    (h : Accounts cfg d (polled.map Prod.fst ++ outstanding) free)
    (hrun : (SendDispatcher.completeAll (polled.map fun c => ⟨c.1.wr.wrId, c.2⟩)).run d =
      .ok () d') : ∃ free', Accounts cfg d' outstanding free' := by
  induction polled generalizing d free with
  | nil =>
    cases hrun
    exact ⟨free, h⟩
  | cons c polled ih =>
    obtain ⟨_, d₁, hc, hrun⟩ := Exec.run_bind_eq_ok.mp hrun
    exact ih (h.complete hc) hrun

end Accounts

/-- What a poll delivers and what stays are the outstanding work requests, regrouped. -/
theorem pollOutstanding_perm (outstanding : List PostedWr) (wcs : List IbvWc) :
    outstanding.Perm ((pollOutstanding outstanding wcs).1.map Prod.fst ++
      (pollOutstanding outstanding wcs).2) := by
  induction wcs generalizing outstanding with
  | nil => exact List.Perm.refl _
  | cons wc wcs ih =>
    rw [pollOutstanding]
    split
    · next p hp =>
      simp only [List.map_cons, List.cons_append]
      exact (List.perm_cons_erase (List.mem_of_find?_eq_some hp)).trans ((ih _).cons p)
    · exact ih outstanding

/-- Every delivered completion was offered. -/
theorem mem_pollOutstanding {outstanding : List PostedWr} {wcs : List IbvWc}
    {c : PostedWr × IbvWcStatus} (h : c ∈ (pollOutstanding outstanding wcs).1) :
    c.1 ∈ outstanding ∧ ⟨c.1.wr.wrId, c.2⟩ ∈ wcs := by
  induction wcs generalizing outstanding with
  | nil => cases h
  | cons wc wcs ih =>
    rw [pollOutstanding] at h
    split at h
    · next p hp =>
      rcases List.mem_cons.mp h with rfl | h
      · have hid := List.find?_some hp
        simp only [decide_eq_true_eq] at hid
        refine ⟨List.mem_of_find?_eq_some hp, ?_⟩
        rw [hid]
        exact List.mem_cons_self
      · obtain ⟨h1, h2⟩ := ih h
        exact ⟨List.mem_of_mem_erase h1, List.mem_cons_of_mem _ h2⟩
    · obtain ⟨h1, h2⟩ := ih h
      exact ⟨h1, List.mem_cons_of_mem _ h2⟩

/-- Only the branch of `IBV_WC_RETRY_EXC_ERR` throws a `DisconnectedException`. -/
theorem complete_disconnected {d d' : SendDispatcher} {wc : IbvWc} {nodeId : NodeId}
    (hrun : (SendDispatcher.complete wc).run d = .error (.disconnected nodeId) d') :
    wc.status = .retryExcErr := by
  rcases Exec.run_bind_eq_error.mp hrun with hrun | ⟨_, d₁, -, hrun⟩
  · simp only [SendDispatcher.completeStatus, EStateM.run_bind, EStateM.run_get] at hrun
    cases hstatus : wc.status with
    | success => rw [hstatus] at hrun; cases hrun
    | wrFlushErr =>
      rw [hstatus] at hrun
      simp only [Exec.run_ite] at hrun
      split at hrun <;> cases hrun
    | other => rw [hstatus] at hrun; cases hrun
    | retryExcErr => rfl
  · rcases Exec.run_bind_eq_error.mp hrun with hrun | ⟨_, _, -, hrun⟩
    · rw [Exec.run_tryCatch] at hrun
      split at hrun <;> cases hrun
    · cases hrun

theorem completeAll_disconnected {d d' : SendDispatcher} {wcs : List IbvWc} {nodeId : NodeId}
    (hrun : (SendDispatcher.completeAll wcs).run d = .error (.disconnected nodeId) d') :
    ∃ wc ∈ wcs, wc.status = .retryExcErr := by
  induction wcs generalizing d with
  | nil => cases hrun
  | cons wc wcs ih =>
    rcases Exec.run_bind_eq_error.mp hrun with hrun | ⟨_, d₁, -, hrun⟩
    · exact ⟨wc, List.mem_cons_self, complete_disconnected hrun⟩
    · obtain ⟨wc', hwc, hstatus⟩ := ih hrun
      exact ⟨wc', List.mem_cons_of_mem wc hwc, hstatus⟩

/-! ## Runs -/

/-- The condition on a call: no completion of the batch has status `IBV_WC_RETRY_EXC_ERR`. -/
def NoRetry (env : DispatchEnv) : Prop :=
  ∀ wc ∈ env.pollCq.getD [], wc.status ≠ .retryExcErr

instance NoRetry.instDecidable (env : DispatchEnv) : Decidable (NoRetry env) :=
  inferInstanceAs (Decidable (∀ wc ∈ env.pollCq.getD [], wc.status ≠ .retryExcErr))

namespace SendWorld

def Balanced (cfg : SendConfig) (w : SendWorld) : Prop :=
  ∃ free, Accounts cfg w.dispatcher w.outstanding free

section
variable {cfg : SendConfig} {env : DispatchEnv} {workPackage : NextWorkPackage} {w w' : SendWorld}

theorem Balanced.sends (h : w.Balanced cfg) (hs : Sends cfg env workPackage w w') :
    w'.Balanced cfg := by
  obtain ⟨free, h⟩ := h
  cases hs with
  | idle => exact ⟨free, h⟩
  | sent hne hc hconnection hrun =>
    obtain ⟨ids, rest, p, rfl, hlen, hp, hsize,
      ⟨rfl, rfl⟩ | ⟨-, -, sendWrs, posted, hposted, rfl⟩⟩ :=
      run_sendData_ok (w := w.connect _) h.holds hrun
    · have hpool : Accounts cfg { w.dispatcher with workRequestCtxPool := p } w.outstanding rest :=
        { h with holds := hp, poolSize := hsize.trans h.poolSize }
      exact ⟨rest, hpool.congr rfl rfl rfl rfl⟩
    · exact ⟨rest, Accounts.post (w := w.connect _) h hlen (by rw [hconnection]) hp hsize hposted⟩

theorem Balanced.polls (h : w.Balanced cfg) (hp : Polls cfg env w w') : w'.Balanced cfg := by
  obtain ⟨free, h⟩ := h
  cases hp with
  | nothing => exact ⟨free, h⟩
  | all hd => exact (h.perm (pollOutstanding_perm _ _)).completeAll hd

theorem completed_ne_disconnected (h : NoRetry env) {nodeId : NodeId} {d : SendDispatcher} :
    w.completed cfg env ≠ .error (.disconnected nodeId) d := by
  intro hd
  obtain ⟨wc, hwc, hstatus⟩ := completeAll_disconnected hd
  obtain ⟨c, hc, rfl⟩ := List.mem_map.mp hwc
  exact h _ (List.mem_of_mem_take (mem_pollOutstanding hc).2) hstatus

theorem Balanced.step (h : w.Balanced cfg) (hretry : NoRetry env) (hs : step cfg w env = some w') :
    w'.Balanced cfg := by
  have hbegin : w.beginDispatch.Balanced cfg := by
    obtain ⟨free, h⟩ := h
    exact ⟨free, h.congr rfl rfl rfl rfl⟩
  obtain ⟨workPackage, -, ⟨w₁, hsends, hpolls | ⟨nodeId, d, hd, -⟩⟩ |
    ⟨-, ⟨-, hpolls⟩ | ⟨nodeId, -, rfl⟩⟩⟩ := step_cases hs
  · exact (hbegin.sends hsends).polls hpolls
  · exact absurd hd (completed_ne_disconnected hretry)
  · exact hbegin.polls hpolls
  · obtain ⟨free, hbegin⟩ := hbegin
    exact ⟨free, hbegin.congr rfl rfl rfl rfl⟩

end

/-- After every run whose batches hold no `IBV_WC_RETRY_EXC_ERR`, all counters
are the number of work requests posted and not yet polled. -/
theorem counters_eq_outstanding (cfg : SendConfig) (envs : List DispatchEnv) {w : SendWorld}
    (hrun : Lts.exec (step cfg) (init cfg) envs = some w) (hretry : ∀ env ∈ envs, NoRetry env) :
    w.dispatcher.completionsPending = w.outstanding.length ∧
      ∑ n, w.dispatcher.sendQueuePending n = w.outstanding.length ∧
      w.dispatcher.workRequestCtxPool.nonReturnedBuffers = w.outstanding.length ∧
      ∀ n, w.dispatcher.sendQueuePending n = w.outstanding.countP fun p => p.nodeId = n := by
  have hbalanced : w.Balanced cfg := by
    refine Lts.exec_invariant_along (P := fun _ env => NoRetry env)
      (fun w env w' h hp hs => h.step hp hs) ⟨_, Accounts.init cfg⟩ ?_ hrun
    exact Lts.along_of_forall_mem hretry _
  obtain ⟨free, h⟩ := hbalanced
  exact ⟨h.completionsPending, h.sum_sendQueuePending, h.nonReturnedBuffers, h.sendQueuePending⟩

/-- Receive buffers of 4 bytes, one per work request; queues of 4 work requests. -/
def smallConfig : SendConfig where
  arith := .uint32
  recvBufferSize := 4
  maxSGEs := 1
  ibSQSize := 4
  ibSharedSCQSize := 4

/-- A package for a node from a ring of 64 bytes, with the completions polled after it. -/
def sendTo (nodeId : NodeId) (posBackRel posFrontRel : Nat) (wcs : List IbvWc) : DispatchEnv where
  workPackage := some ⟨posBackRel, posFrontRel, 0, nodeId⟩
  getConnection := .ok ⟨0, 1, 64⟩
  postSend := .success
  pollCq := some wcs

/-- No package, only completions. -/
def pollOnly (wcs : List IbvWc) : DispatchEnv where
  workPackage := some ⟨0, 0, 0, nodeIdInvalid⟩
  getConnection := .error (.timeout "")
  postSend := .success
  pollCq := some wcs

theorem counters_eq_outstanding_two : ∃ w,
    Lts.exec (step smallConfig) (init smallConfig)
      [sendTo 1 0 8 [⟨0, .success⟩], sendTo 1 8 20 []] = some w ∧
    w.dispatcher.completionsPending = w.outstanding.length ∧
    ∑ n, w.dispatcher.sendQueuePending n = w.outstanding.length ∧
    w.dispatcher.workRequestCtxPool.nonReturnedBuffers = w.outstanding.length ∧
    ∀ n, w.dispatcher.sendQueuePending n = w.outstanding.countP fun p => p.nodeId = n := by
  have hsome : (Lts.exec (step smallConfig) (init smallConfig)
      [sendTo 1 0 8 [⟨0, .success⟩], sendTo 1 8 20 []]).isSome := by decide +kernel
  obtain ⟨w, hw⟩ := Option.isSome_iff_exists.mp hsome
  exact ⟨w, hw, counters_eq_outstanding smallConfig _ hw (by decide +kernel)⟩

/-- Two work requests to node 1: the first succeeds, the second fails with
`IBV_WC_RETRY_EXC_ERR`.  Nothing is outstanding, but both counters stay at one. -/
theorem retry_leaves_counters : ∃ w,
    Lts.exec (step smallConfig) (init smallConfig)
      [sendTo 1 0 8 [⟨0, .success⟩], pollOnly [⟨1, .retryExcErr⟩]] = some w ∧
    w.outstanding = [] ∧ w.dispatcher.workRequestCtxPool.nonReturnedBuffers = 0 ∧
    w.dispatcher.completionsPending = 1 ∧ w.dispatcher.sendQueuePending 1 = 1 := by
  have hmap : (Lts.exec (step smallConfig) (init smallConfig)
      [sendTo 1 0 8 [⟨0, .success⟩], pollOnly [⟨1, .retryExcErr⟩]]).map (fun w =>
        (w.outstanding, w.dispatcher.workRequestCtxPool.nonReturnedBuffers,
          w.dispatcher.completionsPending, w.dispatcher.sendQueuePending 1)) =
      some ([], 0, 1, 1) := by decide +kernel
  obtain ⟨w, hw, hv⟩ := Option.map_eq_some_iff.mp hmap
  simp only [Prod.mk.injEq] at hv
  exact ⟨w, hw, hv⟩

end SendWorld

end Ibdxnet.Msgrc
