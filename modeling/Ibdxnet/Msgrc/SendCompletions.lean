import Ibdxnet.Msgrc.CompletedWorkList
import Ibdxnet.Msgrc.SendAccounting

/-!
# What the send handler is told about completions

In a run in which every completion is successful, the list the next
`GetNextDataToSend` is called with sums up the work requests that were completed
in the last call, through their contexts:

    outstanding before ++ posted in the call
      = completed in the call ++ outstanding after        (up to order)
    list = Reset list, then one `add` for each completion  (`Completes`)

A context says of its work request what the request was built with
(`DescribedBy`), so the list can be read as one of work requests
(`completions_reported`), as long as it has room for them (`HasRoom`).
-/

namespace Ibdxnet.Msgrc

open Ibdxnet.Con Sys

/-! ## Work requests and their contexts -/

/-- `m_sendSize` of the context of a work request with these elements. -/
def sendSizeOf (A : Arith) : List IbvSge → Nat
  | [] => 0
  | [sge] => sge.length
  | sge :: sge' :: _ => A.add sge.length sge'.length

namespace PostedWr

variable (A : Arith) (p : PostedWr)

def sendSize : Nat := sendSizeOf A p.wr.sgList

def fcData : Nat := p.wr.immData.flowControlData.toNat

/-- The context says what the work request is. -/
structure DescribedBy (ctx : SendWorkRequestCtx) : Prop where
  targetNodeId : ctx.targetNodeId = p.nodeId
  sendSize : ctx.sendSize = p.sendSize A
  fcData : ctx.fcData.toNat = p.fcData

end PostedWr

/-- The bytes of the work requests to node `n`. -/
def bytesTo (A : Arith) (n : NodeId) (l : List PostedWr) : Nat :=
  ((l.filter fun p => p.nodeId = n).map (PostedWr.sendSize A)).sum

/-- The flow control data of the work requests to node `n`. -/
def fcDataTo (n : NodeId) (l : List PostedWr) : Nat :=
  ((l.filter fun p => p.nodeId = n).map PostedWr.fcData).sum

section
variable {A : Arith} {n : NodeId} {l l' : List PostedWr} {ctxs : Nat → SendWorkRequestCtx}

theorem bytesTo_append : bytesTo A n (l ++ l') = bytesTo A n l + bytesTo A n l' := by
  simp [bytesTo]

theorem fcDataTo_append : fcDataTo n (l ++ l') = fcDataTo n l + fcDataTo n l' := by
  simp [fcDataTo]

theorem bytesTo_perm (h : l.Perm l') : bytesTo A n l = bytesTo A n l' :=
  ((h.filter _).map _).sum_eq

theorem fcDataTo_perm (h : l.Perm l') : fcDataTo n l = fcDataTo n l' :=
  ((h.filter _).map _).sum_eq

/-- Sums over the contexts are sums over the work requests. -/
theorem filter_ctxs (h : ∀ p ∈ l, p.DescribedBy A (ctxs p.wr.wrId)) :
    (l.map fun p => ctxs p.wr.wrId).filter (fun ctx => ctx.targetNodeId = n) =
      (l.filter fun p => p.nodeId = n).map fun p => ctxs p.wr.wrId := by
  rw [List.filter_map]
  congr 1
  apply List.filter_congr
  intro p hp
  simp [(h p hp).targetNodeId]

theorem bytesOf_ctxs (h : ∀ p ∈ l, p.DescribedBy A (ctxs p.wr.wrId)) :
    bytesOf n (l.map fun p => ctxs p.wr.wrId) = bytesTo A n l := by
  rw [bytesOf, filter_ctxs h, List.map_map, bytesTo]
  congr 1
  apply List.map_congr_left
  intro p hp
  exact (h p (List.mem_of_mem_filter hp)).sendSize

theorem fcDataOf_ctxs (h : ∀ p ∈ l, p.DescribedBy A (ctxs p.wr.wrId)) :
    fcDataOf n (l.map fun p => ctxs p.wr.wrId) = fcDataTo n l := by
  rw [fcDataOf, filter_ctxs h, List.map_map, fcDataTo]
  congr 1
  apply List.map_congr_left
  intro p hp
  exact (h p (List.mem_of_mem_filter hp)).fcData

end

/-- The context of a request says what its elements are. -/
theorem sendSize_of_mem_requests {cfg : SendConfig} {S posFront room posBack : Nat}
    {fcData : UInt8} {r : SendRequest} (h : r ∈ requests cfg S posFront room posBack fcData) :
    r.sendSize = sendSizeOf cfg.arith r.sgList := by
  rcases mem_requests h with ⟨fcData', rfl⟩ | ⟨posBack', fcData', rfl⟩
  · rfl
  · rw [dataRequest]
    dsimp only
    split <;> rfl

section
variable {cfg : SendConfig} {connection : Connection} {workPackage : NextWorkPackage}
  {d : SendDispatcher} {ids : List Nat} {p : SendWorkRequestCtxPool} {posted : List IbvSendWr}

/-- A posted work request is described by its context. -/
theorem describedBy_of_posted (hids : ids.Nodup)
    (hlen : ids.length = (packageRequests cfg d connection workPackage).length)
    (hnode : connection.remoteNodeId = workPackage.nodeId)
    (hposted : posted.map IbvSendWr.unlinked = List.zipWith
      (fun ctx r => r.toWr connection.sourceNodeId ctx) ids
      (packageRequests cfg d connection workPackage)) {wr : IbvSendWr} (hwr : wr ∈ posted) :
    (PostedWr.mk connection.remoteNodeId wr).DescribedBy cfg.arith
      ((d.prepare cfg connection workPackage ids p).ctxs wr.wrId) := by
  obtain ⟨i, hi, rfl⟩ := List.getElem_of_mem hwr
  have hmap : ids.map (d.prepare cfg connection workPackage ids p).ctxs =
      (packageRequests cfg d connection workPackage).map fun r => r.toCtx workPackage.nodeId :=
    Updates.map_updateAll hids (by rw [List.length_map]; exact hlen)
  have hposlen := congrArg List.length hposted
  rw [List.length_map, List.length_zipWith, hlen, Nat.min_self] at hposlen
  have hi₁ : i < ids.length := by omega
  have hi₂ : i < (packageRequests cfg d connection workPackage).length := by omega
  have hunlinked : posted[i].unlinked =
      (packageRequests cfg d connection workPackage)[i].toWr connection.sourceNodeId ids[i] := by
    have := List.getElem_of_eq hposted (i := i) (by rw [List.length_map]; exact hi)
    rwa [List.getElem_map, List.getElem_zipWith] at this
  have hctx : (d.prepare cfg connection workPackage ids p).ctxs ids[i] =
      (packageRequests cfg d connection workPackage)[i].toCtx workPackage.nodeId := by
    have := List.getElem_of_eq hmap (i := i) (by rw [List.length_map]; exact hi₁)
    rwa [List.getElem_map, List.getElem_map] at this
  have hmem : (packageRequests cfg d connection workPackage)[i] ∈
      packageRequests cfg d connection workPackage := List.getElem_mem _
  generalize (packageRequests cfg d connection workPackage)[i] = r at *
  have hwrId : posted[i].wrId = ids[i] := congrArg IbvSendWr.wrId hunlinked
  have hsge : posted[i].sgList = r.sgList := congrArg IbvSendWr.sgList hunlinked
  have himm : posted[i].immData = ⟨connection.sourceNodeId, r.fcData⟩ :=
    congrArg IbvSendWr.immData hunlinked
  rw [hwrId, hctx]
  refine ⟨hnode.symm, ?_, ?_⟩
  · rw [PostedWr.sendSize, hsge]
    exact sendSize_of_mem_requests hmem
  · rw [PostedWr.fcData, himm]
    simp [SendRequest.toCtx]

end

/-! ## One call -/

/-- Every completion of the batch is successful. -/
def AllSuccess (env : DispatchEnv) : Prop :=
  ∀ wc ∈ env.pollCq.getD [], wc.status = .success

instance (env : DispatchEnv) : Decidable (AllSuccess env) :=
  inferInstanceAs (Decidable (∀ wc ∈ env.pollCq.getD [], wc.status = .success))

theorem AllSuccess.noRetry {env : DispatchEnv} (h : AllSuccess env) : NoRetry env := by
  intro wc hwc hstatus
  rw [h wc hwc] at hstatus
  cases hstatus

theorem run_complete_success {d d' : SendDispatcher} {ctx : Nat}
    (hrun : (SendDispatcher.complete ⟨ctx, .success⟩).run d = .ok () d') :
    d'.ctxs = d.ctxs ∧ d'.completionList = d.completionList.add (d.ctxs ctx) := by
  obtain ⟨_, d₁, hstatus, hrun⟩ := Exec.run_bind_eq_ok.mp hrun
  cases hstatus
  obtain ⟨_, d₂, hpush, hrun⟩ := Exec.run_bind_eq_ok.mp hrun
  cases hrun
  rcases Exec.run_tryCatch_eq_ok.mp hpush with hpush | ⟨e, d₃, -, hthrow⟩
  · obtain ⟨q, -, rfl⟩ := Exec.run_zoom_eq_ok.mp hpush
    exact ⟨rfl, rfl⟩
  · cases hthrow

theorem run_completeAll_success {d d' : SendDispatcher} {ps : List PostedWr}
    (hrun : (SendDispatcher.completeAll (ps.map fun p => ⟨p.wr.wrId, .success⟩)).run d =
      .ok () d') :
    d'.ctxs = d.ctxs ∧ d'.completionList =
      (ps.map fun p => d.ctxs p.wr.wrId).foldl CompletedWorkList.add d.completionList := by
  induction ps generalizing d with
  | nil =>
    cases hrun
    exact ⟨rfl, rfl⟩
  | cons p ps ih =>
    obtain ⟨_, d₁, hc, hrun⟩ := Exec.run_bind_eq_ok.mp hrun
    obtain ⟨hctxs, hlist⟩ := run_complete_success hc
    obtain ⟨hctxs', hlist'⟩ := ih hrun
    rw [hctxs, hlist] at hlist'
    exact ⟨hctxs'.trans hctxs, hlist'⟩

/-- The call gets to `__PollCompletions`: `GetConnection` does not find the node disconnected. -/
def DispatchEnv.reachesPoll (env : DispatchEnv) : Bool :=
  match env.workPackage, env.getConnection with
  | some workPackage, .error (.disconnected _) => workPackage.nodeId = nodeIdInvalid
  | _, _ => true

namespace SendWorld

/-- The work requests completed in the call from `w` to `w'`, in the order they are polled. -/
def completedIn (cfg : SendConfig) (env : DispatchEnv) (w w' : SendWorld) : List PostedWr :=
  if env.reachesPoll then
    (pollOutstanding (w.outstanding ++ w'.posted)
      ((env.pollCq.getD []).take cfg.ibSharedSCQSize.toNat)).1.map Prod.fst
  else []

/-- What holds between two calls. -/
structure Tracked (cfg : SendConfig) (w : SendWorld) : Prop where
  balanced : w.Balanced cfg
  described : ∀ p ∈ w.outstanding, p.DescribedBy cfg.arith (w.dispatcher.ctxs p.wr.wrId)
  tidy : w.dispatcher.completionList.Tidy

/-- A call that began in `w` has come to `w₁`, and has not polled. -/
structure Sent (w w₁ : SendWorld) : Prop where
  outstanding : w₁.outstanding = w.outstanding ++ w₁.posted
  history : w₁.history = w.history ++ w₁.posted
  list : w₁.dispatcher.completionList.Empty

/-- In a call from `w` to `w'`, the work requests `done` were completed. -/
structure Completes (cfg : SendConfig) (w w' : SendWorld) (done : List PostedWr) : Prop where
  perm : (w.outstanding ++ w'.posted).Perm (done ++ w'.outstanding)
  history : w'.history = w.history ++ w'.posted
  described : ∀ p ∈ done, p.DescribedBy cfg.arith (w'.dispatcher.ctxs p.wr.wrId)
  length : done.length < 2 ^ 16
  list : ∃ l : CompletedWorkList, l.Empty ∧ w'.dispatcher.completionList =
    (done.map fun p => w'.dispatcher.ctxs p.wr.wrId).foldl CompletedWorkList.add l

section
variable {cfg : SendConfig} {env : DispatchEnv} {workPackage : NextWorkPackage}
  {w w' w₁ : SendWorld}

theorem Tracked.beginDispatch (h : Tracked cfg w) :
    Tracked cfg w.beginDispatch ∧ Sent w w.beginDispatch := by
  have hempty := h.tidy.reset
  obtain ⟨free, hfree⟩ := h.balanced
  refine ⟨⟨⟨free, hfree.congr rfl rfl rfl rfl⟩, h.described, fun n _ =>
    ⟨hempty.numBytesWritten n, hempty.fcDataWritten n⟩⟩, ?_, ?_, hempty⟩
  · exact (List.append_nil _).symm
  · exact (List.append_nil _).symm

/-- Before the poll, what is posted is outstanding. -/
theorem Tracked.sends (h : Tracked cfg w) (hs : Sends cfg env workPackage w.beginDispatch w₁) :
    Tracked cfg w₁ ∧ Sent w w₁ := by
  obtain ⟨hbegin, hsent⟩ := h.beginDispatch
  have hbalanced := hbegin.balanced.sends hs
  cases hs with
  | idle => exact ⟨hbegin, hsent⟩
  | sent hne hc hconnection hrun =>
    next c connection ret w₂ =>
    obtain ⟨free, hfree⟩ := hbegin.balanced
    obtain ⟨ids, rest, p, rfl, hlen, hp, -, ⟨rfl, rfl⟩ | ⟨-, -, sendWrs, posted, hposted, rfl⟩⟩ :=
      run_sendData_ok (w := w.beginDispatch.connect connection) hfree.holds hrun
    · exact ⟨⟨hbalanced, hbegin.described, hbegin.tidy⟩, hsent.outstanding, hsent.history,
        hsent.list⟩
    · have hremote : connection.remoteNodeId = workPackage.nodeId := by rw [hconnection]
      have hnodup := hfree.nodup
      refine ⟨⟨hbalanced, fun q hq => ?_, hbegin.tidy⟩, rfl, rfl, hsent.list⟩
      rcases List.mem_append.mp hq with hq | hq
      · have hfresh : q.wr.wrId ∉ ids := by
          intro hmem
          rw [List.append_assoc] at hnodup
          exact (List.nodup_append.mp hnodup).2.2 _ hmem _
            (List.mem_append_right _ (List.mem_map_of_mem hq)) rfl
        have hctx : (w.beginDispatch.dispatcher.prepare cfg connection workPackage ids p).ctxs
            q.wr.wrId = w.beginDispatch.dispatcher.ctxs q.wr.wrId :=
          Updates.updateAll_of_notMem hfresh
        change q.DescribedBy cfg.arith
          ((w.beginDispatch.dispatcher.prepare cfg connection workPackage ids p).ctxs
            q.wr.wrId)
        rw [hctx]
        exact hbegin.described q hq
      · obtain ⟨wr, hwr, rfl⟩ := List.mem_map.mp hq
        change (PostedWr.mk connection.remoteNodeId wr).DescribedBy cfg.arith
          ((w.beginDispatch.dispatcher.prepare cfg connection workPackage ids p).ctxs wr.wrId)
        exact describedBy_of_posted (List.nodup_append.mp (List.nodup_append.mp hnodup).1).1 hlen
          hremote hposted hwr

/-- The poll completes what it delivers. -/
theorem Tracked.polls (hsuccess : AllSuccess env) (h : Tracked cfg w₁) (hsent : Sent w w₁)
    (hp : Polls cfg env w₁ w') :
    Tracked cfg w' ∧ Completes cfg w w' ((w₁.polled cfg env).1.map Prod.fst) ∧
      w'.posted = w₁.posted := by
  have hbalanced := h.balanced.polls hp
  obtain ⟨free, hfree⟩ := h.balanced
  have hperm : w₁.outstanding.Perm
      ((w₁.polled cfg env).1.map Prod.fst ++ (w₁.polled cfg env).2) :=
    pollOutstanding_perm _ _
  have hlength : ((w₁.polled cfg env).1.map Prod.fst).length < 2 ^ 16 := by
    have := hfree.length_lt
    have hlen := hperm.length_eq
    rw [List.length_append] at hlen
    omega
  cases hp with
  | nothing hzero =>
    have hnil : w'.outstanding = [] := by
      rw [← List.length_eq_zero_iff, ← hfree.completionsPending, hzero]
    rw [hnil] at hperm
    have hdone : (w'.polled cfg env).1.map Prod.fst = [] :=
      (List.append_eq_nil_iff.mp hperm.nil_eq.symm).1
    rw [hdone]
    refine ⟨h, ⟨?_, hsent.history, nofun, Nat.two_pow_pos 16, _, hsent.list, rfl⟩, rfl⟩
    rw [hsent.outstanding]
    exact List.Perm.refl _
  | @all d hd =>
    have hpolled : (w₁.polled cfg env).1.map (fun c => (⟨c.1.wr.wrId, c.2⟩ : IbvWc)) =
        ((w₁.polled cfg env).1.map Prod.fst).map fun p => ⟨p.wr.wrId, .success⟩ := by
      rw [List.map_map]
      apply List.map_congr_left
      intro c hc
      have hstatus := hsuccess _ (List.mem_of_mem_take (mem_pollOutstanding hc).2)
      simp only at hstatus
      simp [hstatus]
    rw [completed, hpolled] at hd
    obtain ⟨hctxs, hlist⟩ := run_completeAll_success hd
    have hmem : ∀ p, p ∈ (w₁.polled cfg env).1.map Prod.fst ++ (w₁.polled cfg env).2 →
        p.DescribedBy cfg.arith (d.ctxs p.wr.wrId) := by
      intro p hp
      rw [hctxs]
      exact h.described p (hperm.mem_iff.mpr hp)
    rw [← hctxs] at hlist
    refine ⟨⟨hbalanced, fun p hp => hmem p (List.mem_append_right _ hp), ?_⟩,
      ⟨?_, hsent.history, fun p hp => hmem p (List.mem_append_left _ hp), hlength, _, hsent.list,
        hlist⟩, rfl⟩
    · change d.completionList.Tidy
      rw [hlist]
      exact (CompletedWorkList.foldl_add hsent.list _ (by simpa using hlength)).2.1
    · exact hsent.outstanding ▸ hperm

theorem completedIn_of_reachesPoll (h : env.reachesPoll) (hsent : Sent w w₁)
    (hposted : w'.posted = w₁.posted) :
    completedIn cfg env w w' = (w₁.polled cfg env).1.map Prod.fst := by
  rw [completedIn, if_pos h, hposted, ← hsent.outstanding]
  rfl

theorem Tracked.step (h : Tracked cfg w) (hsuccess : AllSuccess env)
    (hs : step cfg w env = some w') :
    Tracked cfg w' ∧ Completes cfg w w' (completedIn cfg env w w') := by
  obtain ⟨hbegin, hsent⟩ := h.beginDispatch
  obtain ⟨workPackage, hwp, ⟨w₁, hsends, hpolls | ⟨nodeId, d, hd, -⟩⟩ |
    ⟨hne, ⟨⟨reason, hc⟩, hpolls⟩ | ⟨nodeId, hc, rfl⟩⟩⟩ := step_cases hs
  · obtain ⟨h₁, hsent₁⟩ := h.sends hsends
    have hreach : env.reachesPoll := by
      cases hsends with
      | idle hidle =>
        rw [DispatchEnv.reachesPoll, hwp]
        split <;> simp_all
      | sent hne hc => simp [DispatchEnv.reachesPoll, hwp, hc]
    obtain ⟨h', hcompletes, hposted⟩ := h₁.polls hsuccess hsent₁ hpolls
    rw [completedIn_of_reachesPoll hreach hsent₁ hposted]
    exact ⟨h', hcompletes⟩
  · exact absurd hd (completed_ne_disconnected hsuccess.noRetry)
  · obtain ⟨h', hcompletes, hposted⟩ := hbegin.polls hsuccess hsent hpolls
    rw [completedIn_of_reachesPoll (by simp [DispatchEnv.reachesPoll, hwp, hc]) hsent hposted]
    exact ⟨h', hcompletes⟩
  · obtain ⟨free, hfree⟩ := hbegin.balanced
    have hreach : env.reachesPoll = false := by simp [DispatchEnv.reachesPoll, hwp, hc, hne]
    rw [completedIn, hreach]
    refine ⟨⟨⟨free, hfree.congr rfl rfl rfl rfl⟩, hbegin.described, hbegin.tidy⟩,
      ?_, hsent.history, nofun, Nat.two_pow_pos 16, _, hsent.list, rfl⟩
    exact List.Perm.of_eq hsent.outstanding.symm

theorem tracked_init (cfg : SendConfig) : Tracked cfg (init cfg) where
  balanced := ⟨_, Accounts.init cfg⟩
  described p hp := by cases hp
  tidy _ _ := ⟨rfl, rfl⟩

end

end SendWorld

/-! ## What the handler is told -/

/-- The list has room for the work requests `done`: the sums of each node fit into
their fields, the first one of a node with several is not empty, and there are not
more nodes than entries. -/
structure HasRoom (A : Arith) (maxNumConnections : Nat) (done : List PostedWr) : Prop where
  bytes : ∀ n, bytesTo A n done < 2 ^ 32
  fcData : ∀ n, fcDataTo n done < 2 ^ 8
  first : ∀ n p p' rest, done.filter (fun p => p.nodeId = n) = p :: p' :: rest →
    p.sendSize A ≠ 0 ∨ p.fcData ≠ 0
  nodes : (done.map PostedWr.nodeId).toFinset.card ≤ maxNumConnections

/-- The list sums up the work requests `done`. -/
structure SumsUp (A : Arith) (maxNumConnections : Nat) (l : CompletedWorkList)
    (done : List PostedWr) : Prop where
  nodup : l.listed.Nodup
  numNodes : l.numNodes ≤ maxNumConnections
  mem_listed : ∀ n, n ∈ l.listed ↔ ∃ p ∈ done, p.nodeId = n
  numBytesWritten : ∀ n, l.numBytesWritten n = bytesTo A n done
  fcDataWritten : ∀ n, (l.fcDataWritten n).toNat = fcDataTo n done
  unlisted : ∀ n, n ∉ l.listed → l.numBytesWritten n = 0 ∧ l.fcDataWritten n = 0

section
variable {A : Arith} {maxNumConnections : Nat} {done : List PostedWr}
  {ctxs : Nat → SendWorkRequestCtx}

/-- Small batches of work requests that are not empty always fit. -/
theorem HasRoom.of_sum (hbytes : (done.map (PostedWr.sendSize A)).sum < 2 ^ 32)
    (hfc : (done.map PostedWr.fcData).sum < 2 ^ 8)
    (hne : ∀ p ∈ done, p.sendSize A ≠ 0 ∨ p.fcData ≠ 0)
    (hnodes : (done.map PostedWr.nodeId).toFinset.card ≤ maxNumConnections) :
    HasRoom A maxNumConnections done where
  bytes _ := Nat.lt_of_le_of_lt ((List.filter_sublist.map _).sum_le_sum fun _ _ => Nat.zero_le _)
    hbytes
  fcData _ := Nat.lt_of_le_of_lt ((List.filter_sublist.map _).sum_le_sum fun _ _ => Nat.zero_le _)
    hfc
  first _ p _ _ h := hne p (List.mem_of_mem_filter (h ▸ List.mem_cons_self))
  nodes := hnodes

theorem HasRoom.fits (h : HasRoom A maxNumConnections done)
    (hctxs : ∀ p ∈ done, p.DescribedBy A (ctxs p.wr.wrId)) :
    CompletedWorkList.Fits (done.map fun p => ctxs p.wr.wrId) where
  bytes n := by
    rw [bytesOf_ctxs hctxs]
    exact h.bytes n
  fcData n := by
    rw [fcDataOf_ctxs hctxs]
    exact h.fcData n
  first n ctx ctx' rest hfilter := by
    rw [filter_ctxs hctxs] at hfilter
    obtain ⟨p, l, hp, rfl, hl⟩ := List.map_eq_cons_iff.mp hfilter
    obtain ⟨p', l', rfl, -, -⟩ := List.map_eq_cons_iff.mp hl
    have hmem : p ∈ done := List.mem_of_mem_filter (hp ▸ List.mem_cons_self)
    rw [(hctxs p hmem).sendSize, (hctxs p hmem).fcData]
    exact h.first n p p' l' hp

/-- A list with the right sums is a report. -/
theorem HasRoom.sumsUp {l : CompletedWorkList} (h : HasRoom A maxNumConnections done)
    (hctxs : ∀ p ∈ done, p.DescribedBy A (ctxs p.wr.wrId))
    (hlists : l.Lists (done.map fun p => ctxs p.wr.wrId)) :
    SumsUp A maxNumConnections l done := by
  have hmem : ∀ n, n ∈ l.listed ↔ ∃ p ∈ done, p.nodeId = n := by
    intro n
    rw [hlists.mem_listed]
    constructor
    · rintro ⟨ctx, hctx, hn⟩
      obtain ⟨p, hp, rfl⟩ := List.mem_map.mp hctx
      exact ⟨p, hp, by rw [← hn, (hctxs p hp).targetNodeId]⟩
    · rintro ⟨p, hp, rfl⟩
      exact ⟨_, List.mem_map_of_mem hp, (hctxs p hp).targetNodeId⟩
  refine ⟨hlists.nodup, ?_, hmem, fun n => ?_, fun n => ?_, hlists.unlisted⟩
  · calc l.numNodes = l.listed.length := by simp [CompletedWorkList.listed]
      _ = l.listed.toFinset.card := (List.toFinset_card_of_nodup hlists.nodup).symm
      _ ≤ (done.map PostedWr.nodeId).toFinset.card := by
        refine Finset.card_le_card fun n hn => ?_
        rw [List.mem_toFinset, hmem] at hn
        rw [List.mem_toFinset]
        exact List.mem_map.mpr hn
      _ ≤ maxNumConnections := h.nodes
  · rw [hlists.numBytesWritten, bytesOf_ctxs hctxs]
  · rw [hlists.fcDataWritten, fcDataOf_ctxs hctxs]

theorem SumsUp.of_empty {l : CompletedWorkList} (h : l.Empty) :
    SumsUp A maxNumConnections l [] := by
  have hlisted : l.listed = [] := by simp [CompletedWorkList.listed, h.numNodes]
  refine ⟨?_, ?_, ?_, h.numBytesWritten, ?_, fun n _ => ⟨h.numBytesWritten n, h.fcDataWritten n⟩⟩
  · rw [hlisted]
    exact List.nodup_nil
  · rw [h.numNodes]
    exact Nat.zero_le _
  · simp [hlisted]
  · intro n
    rw [h.fcDataWritten]
    rfl

end

namespace SendWorld

/-- The condition on a call: the list has room for the work requests it completes. -/
def CallHasRoom (cfg : SendConfig) (maxNumConnections : Nat) (w : SendWorld) (env : DispatchEnv) :
    Prop :=
  ∀ w', step cfg w env = some w' → HasRoom cfg.arith maxNumConnections (completedIn cfg env w w')

/-- The work requests completed in the last call of a run. -/
def completedLast (cfg : SendConfig) : SendWorld → List DispatchEnv → List PostedWr
  | _, [] => []
  | w, env :: envs =>
    match step cfg w env with
    | some w' => if envs = [] then completedIn cfg env w w' else completedLast cfg w' envs
    | none => []

/-- The lists passed to `GetNextDataToSend` in the calls of a run and in the next one. -/
def passed (cfg : SendConfig) : SendWorld → List DispatchEnv → List CompletedWorkList
  | w, [] => [w.dispatcher.completionList]
  | w, env :: envs => w.dispatcher.completionList ::
    match step cfg w env with
    | some w' => passed cfg w' envs
    | none => []

/-- Of what was posted to a node, all that is no longer outstanding is in the lists. -/
structure AllReported (cfg : SendConfig) (w : SendWorld) (lists : List CompletedWorkList) :
    Prop where
  bytes : ∀ n, (lists.map fun l => l.numBytesWritten n).sum + bytesTo cfg.arith n w.outstanding =
    bytesTo cfg.arith n w.history
  fcData : ∀ n, (lists.map fun l => (l.fcDataWritten n).toNat).sum + fcDataTo n w.outstanding =
    fcDataTo n w.history

section
variable {cfg : SendConfig} {maxNumConnections : Nat} {env : DispatchEnv} {w₀ w w' : SendWorld}
  {envs : List DispatchEnv}

theorem completedLast_concat (hrun : Lts.exec (step cfg) w₀ envs = some w)
    (hs : step cfg w env = some w') :
    completedLast cfg w₀ (envs ++ [env]) = completedIn cfg env w w' := by
  induction envs generalizing w₀ with
  | nil =>
    cases hrun
    simp [completedLast, hs]
  | cons env' envs ih =>
    obtain ⟨w₁, hw₁, hrun⟩ := Lts.exec_cons_eq_some.mp hrun
    simp [completedLast, hw₁, ih hrun]

theorem passed_concat (hrun : Lts.exec (step cfg) w₀ envs = some w)
    (hs : step cfg w env = some w') :
    passed cfg w₀ (envs ++ [env]) = passed cfg w₀ envs ++ [w'.dispatcher.completionList] := by
  induction envs generalizing w₀ with
  | nil =>
    cases hrun
    simp [passed, hs]
  | cons env' envs ih =>
    obtain ⟨w₁, hw₁, hrun⟩ := Lts.exec_cons_eq_some.mp hrun
    simp [passed, hw₁, ih hrun]

theorem Completes.sumsUp {done : List PostedWr} (h : Completes cfg w w' done)
    (hroom : HasRoom cfg.arith maxNumConnections done) :
    SumsUp cfg.arith maxNumConnections w'.dispatcher.completionList done := by
  obtain ⟨l, hempty, hl⟩ := h.list
  refine hroom.sumsUp h.described ?_
  rw [hl]
  exact CompletedWorkList.lists_foldl_add hempty (by simpa using h.length) (hroom.fits h.described)

theorem AllReported.completes {done : List PostedWr} {lists : List CompletedWorkList}
    (h : AllReported cfg w lists) (hcompletes : Completes cfg w w' done)
    (hsums : SumsUp cfg.arith maxNumConnections w'.dispatcher.completionList done) :
    AllReported cfg w' (lists ++ [w'.dispatcher.completionList]) where
  bytes n := by
    have hw := h.bytes n
    have hperm := bytesTo_perm (A := cfg.arith) (n := n) hcompletes.perm
    rw [bytesTo_append, bytesTo_append] at hperm
    rw [hcompletes.history, bytesTo_append, List.map_append, List.sum_append, List.map_singleton,
      List.sum_singleton, hsums.numBytesWritten]
    omega
  fcData n := by
    have hw := h.fcData n
    have hperm := fcDataTo_perm (n := n) hcompletes.perm
    rw [fcDataTo_append, fcDataTo_append] at hperm
    rw [hcompletes.history, fcDataTo_append, List.map_append, List.sum_append, List.map_singleton,
      List.sum_singleton, hsums.fcDataWritten]
    omega

end

/-- In every run whose completions are all successful, and whose calls complete no
more than the list has room for, the list passed to the handler sums up the
completions of the last call, and all lists together what is no longer outstanding. -/
theorem completions_reported (cfg : SendConfig) (maxNumConnections : Nat)
    (envs : List DispatchEnv) {w : SendWorld}
    (hrun : Lts.exec (step cfg) (init cfg) envs = some w)
    (hsuccess : ∀ env ∈ envs, AllSuccess env)
    (hroom : Lts.Along (step cfg) (CallHasRoom cfg maxNumConnections) (init cfg) envs) :
    SumsUp cfg.arith maxNumConnections w.dispatcher.completionList
        (completedLast cfg (init cfg) envs) ∧
      AllReported cfg w (passed cfg (init cfg) envs) := by
  have hall : Tracked cfg w ∧ SumsUp cfg.arith maxNumConnections w.dispatcher.completionList
        (completedLast cfg (init cfg) envs) ∧
      AllReported cfg w (passed cfg (init cfg) envs) := by
    induction envs using List.reverseRecOn generalizing w with
    | nil =>
      cases hrun
      exact ⟨tracked_init cfg, .of_empty CompletedWorkList.empty_init, fun _ => rfl, fun _ => rfl⟩
    | append_singleton envs env ih =>
      obtain ⟨u, hu, hs⟩ := Lts.exec_concat_eq_some.mp hrun
      obtain ⟨hroom, hlast⟩ := Lts.along_append.mp hroom
      obtain ⟨htracked, -, hreported⟩ :=
        ih hu (fun env henv => hsuccess env (List.mem_append_left _ henv)) hroom
      obtain ⟨hw, hcompletes⟩ := htracked.step (hsuccess env (by simp)) hs
      have hsums := hcompletes.sumsUp ((Lts.along_cons.mp (hlast u hu)).1 w hs)
      rw [completedLast_concat hu hs, passed_concat hu hs]
      exact ⟨hw, hsums, hreported.completes hcompletes hsums⟩
  exact hall.2

/-- The node, the size and the flow control data of the work requests a call completes. -/
def sizesIn (cfg : SendConfig) (env : DispatchEnv) (w : SendWorld) :
    Option (List (NodeId × Nat × Nat)) :=
  (step cfg w env).map fun w' =>
    (completedIn cfg env w w').map fun p => (p.nodeId, p.sendSize cfg.arith, p.fcData)

theorem CallHasRoom.of_sizes {cfg : SendConfig} {maxNumConnections : Nat} {env : DispatchEnv}
    {w : SendWorld} {l : List (NodeId × Nat × Nat)} (hl : sizesIn cfg env w = some l)
    (hbytes : (l.map fun x => x.2.1).sum < 2 ^ 32) (hfc : (l.map fun x => x.2.2).sum < 2 ^ 8)
    (hne : ∀ x ∈ l, x.2.1 ≠ 0 ∨ x.2.2 ≠ 0)
    (hnodes : (l.map Prod.fst).toFinset.card ≤ maxNumConnections) :
    CallHasRoom cfg maxNumConnections w env := by
  intro w' hw'
  rw [sizesIn, hw', Option.map_some, Option.some.injEq] at hl
  subst hl
  rw [List.map_map] at hbytes hfc hnodes
  exact .of_sum hbytes hfc (fun p hp => hne _ (List.mem_map_of_mem hp)) hnodes

/-- Two work requests to node 1 and one to node 2, completed in one call. -/
def exampleCompleting : List DispatchEnv :=
  [sendTo 1 0 8 [], sendTo 2 0 4 [], pollOnly [⟨0, .success⟩, ⟨1, .success⟩, ⟨2, .success⟩]]

theorem completions_reported_three : ∃ w,
    Lts.exec (step smallConfig) (init smallConfig) exampleCompleting = some w ∧
    w.dispatcher.completionList.listed = [1, 2] ∧
    w.dispatcher.completionList.numBytesWritten 1 = 8 ∧
    w.dispatcher.completionList.numBytesWritten 2 = 4 ∧
    SumsUp .uint32 2 w.dispatcher.completionList
      (completedLast smallConfig (init smallConfig) exampleCompleting) ∧
    AllReported smallConfig w (passed smallConfig (init smallConfig) exampleCompleting) := by
  have hmap : (Lts.exec (step smallConfig) (init smallConfig) exampleCompleting).map (fun w =>
      (w.dispatcher.completionList.listed, w.dispatcher.completionList.numBytesWritten 1,
        w.dispatcher.completionList.numBytesWritten 2)) = some ([1, 2], 8, 4) := by decide +kernel
  obtain ⟨w, hrun, hlist⟩ := Option.map_eq_some_iff.mp hmap
  simp only [Prod.mk.injEq] at hlist
  obtain ⟨hlisted, hbytes₁, hbytes₂⟩ := hlist
  have hfirst : sizesIn smallConfig (sendTo 1 0 8 []) (init smallConfig) = some [] := by
    decide +kernel
  have hsecond : ((step smallConfig (init smallConfig) (sendTo 1 0 8 [])).bind
      (sizesIn smallConfig (sendTo 2 0 4 []))) = some [] := by
    decide +kernel
  have hthird : ((Lts.exec (step smallConfig) (init smallConfig)
      [sendTo 1 0 8 [], sendTo 2 0 4 []]).bind
        (sizesIn smallConfig (pollOnly [⟨0, .success⟩, ⟨1, .success⟩, ⟨2, .success⟩]))) =
      some [(1, 4, 0), (1, 4, 0), (2, 4, 0)] := by
    decide +kernel
  refine ⟨w, hrun, hlisted, hbytes₁, hbytes₂,
    completions_reported smallConfig 2 _ hrun (by decide +kernel) ?_⟩
  refine Lts.along_cons.mpr ⟨.of_sizes hfirst (by decide) (by decide) nofun (by decide),
    fun w₁ hw₁ => Lts.along_cons.mpr ⟨?_, fun w₂ hw₂ =>
      Lts.along_cons.mpr ⟨?_, fun _ _ => trivial⟩⟩⟩
  · rw [hw₁, Option.bind_some] at hsecond
    exact .of_sizes hsecond (by decide) (by decide) nofun (by decide)
  · rw [Lts.exec_cons_eq_some.mpr ⟨w₁, hw₁, Lts.exec_cons_eq_some.mpr ⟨w₂, hw₂, rfl⟩⟩,
      Option.bind_some] at hthird
    exact .of_sizes hthird (by decide) (by decide) (by decide) (by decide)

/-- Only flow control data, for a node. -/
def sendFlowControl (nodeId : NodeId) (flowControlData : UInt8) : DispatchEnv where
  workPackage := some ⟨0, 0, flowControlData, nodeId⟩
  getConnection := .ok ⟨0, 1, 64⟩
  postSend := .success
  pollCq := some []

/-- Three flow control messages to node 1, of 128, 128 and 5, are completed in one call.  The first
two add up to zero, so the node is listed again, and only 5 is reported. -/
theorem flow_control_wraps : ∃ w,
    Lts.exec (step smallConfig) (init smallConfig)
      [sendFlowControl 1 128, sendFlowControl 1 128, sendFlowControl 1 5,
        pollOnly [⟨0, .success⟩, ⟨1, .success⟩, ⟨2, .success⟩]] = some w ∧
    w.dispatcher.completionList.listed = [1, 1] ∧
    w.dispatcher.completionList.fcDataWritten 1 = 5 ∧
    fcDataTo 1 w.history = 261 ∧ w.outstanding = [] := by
  have hmap : (Lts.exec (step smallConfig) (init smallConfig)
      [sendFlowControl 1 128, sendFlowControl 1 128, sendFlowControl 1 5,
        pollOnly [⟨0, .success⟩, ⟨1, .success⟩, ⟨2, .success⟩]]).map (fun w =>
        (w.dispatcher.completionList.listed, w.dispatcher.completionList.fcDataWritten 1,
          fcDataTo 1 w.history, w.outstanding)) =
      some ([1, 1], 5, 261, []) := by decide +kernel
  obtain ⟨w, hw, hv⟩ := Option.map_eq_some_iff.mp hmap
  simp only [Prod.mk.injEq] at hv
  exact ⟨w, hw, hv⟩

end SendWorld

end Ibdxnet.Msgrc
