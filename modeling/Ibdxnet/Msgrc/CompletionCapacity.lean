import Ibdxnet.Msgrc.ExactSlicing
import Ibdxnet.Msgrc.SendFailures
import Ibdxnet.Msgrc.SendReporting

/-!
# The capacity of the send completion queue

All nodes share one send completion queue, and one context pool of its size.
The pool bounds the work requests on the send queues: however a run goes,

    outstanding ≤ m_ibSharedSCQSize                      (outstanding_le)

But the loop that prepares a batch looks at the send queue of the package's node
only, and takes a context for each request.  It calls `Pop` on an exhausted pool
exactly when the package needs more requests than there are contexts left
(`neverDry_iff`), which no constructor argument rules out: one node can hold all
contexts when a package for another one comes (`capacity_exhausted`).
-/

namespace Ibdxnet.Msgrc

open Ibdxnet.Con Sys

/-- What `Pop` throws when all objects are out. -/
def poolRanDry : Exception := .poolIllegalState "Pool ran dry, m_front %d, m_back %d"

/-! ## Preparing a batch with too few contexts -/

section
variable {cfg : SendConfig} {connection : Connection} {workPackage : NextWorkPackage}

theorem run_fillDataRequest_nil (nodeId : NodeId) (chunksPos : Nat) {r : SendRequest}
    {d : SendDispatcher} (h : d.workRequestCtxPool.Holds [])
    (hr : r.sendSize ≤ cfg.maxRecvBufferSize) :
    (fillDataRequest cfg connection nodeId chunksPos r).run d = .error poolRanDry d := by
  have hfill := run_fillWorkRequest_nil connection nodeId chunksPos r h
  rw [fillDataRequest]
  split <;> simp only [checkLength, if_neg (Nat.not_lt.mpr hr), EStateM.run_bind, hfill,
    EStateM.run_pure, poolRanDry]

variable (connection) in
/-- A request that is too long fails the sanity check. -/
theorem run_fillDataRequest_long (nodeId : NodeId) (chunksPos : Nat) {r : SendRequest}
    {d : SendDispatcher} {x : Nat} {xs : List Nat} (h : d.workRequestCtxPool.Holds (x :: xs))
    (hr : cfg.maxRecvBufferSize < r.sendSize) :
    ∃ d', (fillDataRequest cfg connection nodeId chunksPos r).run d =
      .error (.illegalState "Total length %d > max recv buffer size %d") d' := by
  obtain ⟨p, hfill, -, -⟩ := run_fillWorkRequest connection nodeId chunksPos r h
  rw [fillDataRequest]
  split
  · refine ⟨d.store connection nodeId chunksPos [x] [r] p, ?_⟩
    simp only [checkLength, if_pos hr, EStateM.run_bind, hfill, Exec.run_throw]
  · refine ⟨d, ?_⟩
    simp only [checkLength, if_pos hr, EStateM.run_bind, Exec.run_throw]

/-- With a context for each request the pool does not run dry, whatever else goes wrong. -/
theorem thrown_prepareLoop_ne {room : Nat} {l : PrepareState} {d : SendDispatcher}
    {xs : List Nat} (h : d.workRequestCtxPool.Holds xs)
    (hlen : (requests cfg connection.sendBufferSize workPackage.posFrontRel room l.posBack
      l.fcData).length ≤ xs.length) :
    Exec.thrown ((prepareLoop cfg connection workPackage room l).run d) ≠ some poolRanDry := by
  induction room generalizing l d xs with
  | zero => simp [prepareLoop]
  | succ room ih =>
    rw [requests] at hlen
    rw [prepareLoop]
    by_cases hcond : l.posBack ≠ workPackage.posFrontRel ∨ l.fcData ≠ 0
    · rw [if_pos hcond] at hlen ⊢
      by_cases hfc : l.posBack = workPackage.posFrontRel ∧ l.fcData ≠ 0
      · rw [if_pos hfc] at hlen ⊢
        cases xs with
        | nil => exact absurd hlen (by simp)
        | cons x rest =>
          obtain ⟨p, hfill, -⟩ := run_fillWorkRequest connection workPackage.nodeId
            l.chunksPos (flowControlRequest l.fcData) h
          simp only [EStateM.run_bind, hfill, EStateM.run_pure, Exec.thrown_ok, ne_eq,
            reduceCtorEq, not_false_eq_true]
      · rw [if_neg hfc] at hlen ⊢
        simp only at hlen ⊢
        generalize dataRequest cfg connection.sendBufferSize workPackage.posFrontRel l.posBack
          l.fcData = r at hlen ⊢
        cases xs with
        | nil => split at hlen <;> simp at hlen
        | cons x rest =>
          by_cases hsize : r.sendSize ≤ cfg.maxRecvBufferSize
          · obtain ⟨p, hfill, hp⟩ := run_fillDataRequest connection workPackage.nodeId
              l.chunksPos h hsize
            simp only [EStateM.run_bind, hfill]
            by_cases hlast : nextPosBack connection.sendBufferSize r = workPackage.posFrontRel
            · simp only [if_pos hlast, EStateM.run_pure, Exec.thrown_ok, ne_eq, reduceCtorEq,
                not_false_eq_true]
            · rw [if_neg hlast] at hlen ⊢
              exact ih hp (by simpa using hlen)
          · obtain ⟨d', hfill⟩ := run_fillDataRequest_long connection workPackage.nodeId
              l.chunksPos h (Nat.not_le.mp hsize)
            simp only [EStateM.run_bind, hfill, Exec.thrown_error, poolRanDry, ne_eq,
              Option.some.injEq, reduceCtorEq, not_false_eq_true]
    · rw [if_neg hcond]
      simp

/-- With fewer contexts than requests, none of them too long, the pool runs dry. -/
theorem thrown_prepareLoop_eq {room : Nat} {l : PrepareState} {d : SendDispatcher}
    {xs : List Nat} (h : d.workRequestCtxPool.Holds xs)
    (hlen : xs.length < (requests cfg connection.sendBufferSize workPackage.posFrontRel room
      l.posBack l.fcData).length)
    (hsize : ∀ r ∈ requests cfg connection.sendBufferSize workPackage.posFrontRel room l.posBack
      l.fcData, r.sendSize ≤ cfg.maxRecvBufferSize) :
    Exec.thrown ((prepareLoop cfg connection workPackage room l).run d) = some poolRanDry := by
  induction room generalizing l d xs with
  | zero => exact absurd hlen (Nat.not_lt_zero _)
  | succ room ih =>
    rw [requests] at hlen hsize
    rw [prepareLoop]
    by_cases hcond : l.posBack ≠ workPackage.posFrontRel ∨ l.fcData ≠ 0
    · rw [if_pos hcond] at hlen hsize ⊢
      by_cases hfc : l.posBack = workPackage.posFrontRel ∧ l.fcData ≠ 0
      · rw [if_pos hfc] at hlen ⊢
        obtain rfl : xs = [] := List.length_eq_zero_iff.mp (by simpa using hlen)
        simp only [EStateM.run_bind, run_fillWorkRequest_nil _ _ _ _ h, Exec.thrown_error,
          poolRanDry]
      · rw [if_neg hfc] at hlen hsize ⊢
        simp only at hlen hsize ⊢
        generalize dataRequest cfg connection.sendBufferSize workPackage.posFrontRel l.posBack
          l.fcData = r at hlen hsize ⊢
        have hr : r.sendSize ≤ cfg.maxRecvBufferSize := by
          split at hsize <;> exact hsize r List.mem_cons_self
        cases xs with
        | nil =>
          simp only [EStateM.run_bind, run_fillDataRequest_nil _ _ h hr, Exec.thrown_error]
        | cons x rest =>
          obtain ⟨p, hfill, hp⟩ := run_fillDataRequest connection workPackage.nodeId
            l.chunksPos h hr
          simp only [EStateM.run_bind, hfill]
          by_cases hlast : nextPosBack connection.sendBufferSize r = workPackage.posFrontRel
          · rw [if_pos hlast] at hlen
            simp at hlen
          · rw [if_neg hlast] at hlen hsize ⊢
            exact ih hp (by simpa using hlen)
              fun r' hr' => hsize r' (List.mem_cons_of_mem r hr')
    · rw [if_neg hcond] at hlen
      simp at hlen

/-- Only the loop takes contexts. -/
theorem thrown_prepare_iff {d : SendDispatcher} :
    Exec.thrown ((sendDataPrepareWorkRequests cfg connection workPackage).run d) =
        some poolRanDry ↔
      Exec.thrown ((prepareLoop cfg connection workPackage (d.room cfg workPackage.nodeId)
        ⟨workPackage.flowControlData, workPackage.posBackRel, 0, 0, 0, 0⟩).run d) =
          some poolRanDry := by
  unfold sendDataPrepareWorkRequests
  simp only [EStateM.run_bind, EStateM.run_get]
  rw [show cfg.ibSQSize.toNat - d.sendQueuePending workPackage.nodeId =
    d.room cfg workPackage.nodeId from rfl]
  cases (prepareLoop cfg connection workPackage (d.room cfg workPackage.nodeId)
    ⟨workPackage.flowControlData, workPackage.posBackRel, 0, 0, 0, 0⟩).run d with
  | error e d₁ => rfl
  | ok l d₁ =>
    refine iff_of_false ?_ (by simp)
    simp only [EStateM.run_modify]
    split
    · simp only [EStateM.run_bind, Exec.run_throw, Exec.thrown_error, poolRanDry,
        Option.some.injEq, reduceCtorEq, not_false_eq_true]
    · simp only [EStateM.run_bind, EStateM.run_modify, EStateM.run_pure, Exec.thrown_ok,
        reduceCtorEq, not_false_eq_true]

/-- Preparing a package of the ring exhausts the pool exactly when it has fewer
contexts than the package needs requests. -/
theorem InRing.thrown_prepare_iff (h : InRing cfg connection workPackage) {d : SendDispatcher}
    {xs : List Nat} (hpool : d.workRequestCtxPool.Holds xs) :
    Exec.thrown ((sendDataPrepareWorkRequests cfg connection workPackage).run d) =
        some poolRanDry ↔
      xs.length < numRequests (d.room cfg workPackage.nodeId)
        (workPackage.total connection.sendBufferSize) cfg.maxRecvBufferSize
        workPackage.flowControlData := by
  rw [Msgrc.thrown_prepare_iff, ← h.length_packageRequests d]
  constructor
  · intro hdry
    by_contra hle
    exact absurd hdry (thrown_prepareLoop_ne hpool (Nat.not_lt.mp hle))
  · intro hlt
    exact thrown_prepareLoop_eq hpool hlt fun r hr => (h.sendSize_le d r hr).1

theorem InRing.toNode (h : InRing cfg connection workPackage) (nodeId : NodeId) :
    InRing cfg { connection with remoteNodeId := nodeId } workPackage where
  arith := h.arith
  chunk := h.chunk
  posBack := h.posBack
  posFront := h.posFront

/-- With as many contexts as free places in the send queue no package exhausts the pool. -/
theorem thrown_prepare_ne {d : SendDispatcher} {xs : List Nat}
    (hpool : d.workRequestCtxPool.Holds xs)
    (hroom : d.room cfg workPackage.nodeId ≤ xs.length) :
    Exec.thrown ((sendDataPrepareWorkRequests cfg connection workPackage).run d) ≠
      some poolRanDry := by
  rw [ne_eq, thrown_prepare_iff]
  exact thrown_prepareLoop_ne hpool (Nat.le_trans (length_requests_le _ _ _) hroom)

end

/-! ## Runs -/

namespace SendWorld

/-- The contexts in the pool. -/
def freeContexts (cfg : SendConfig) (w : SendWorld) : Nat :=
  cfg.ibSharedSCQSize.toNat - w.dispatcher.workRequestCtxPool.nonReturnedBuffers

/-- In this call `Pop` is not called on an exhausted pool. -/
def NeverDry (cfg : SendConfig) (w : SendWorld) (env : DispatchEnv) : Prop :=
  OnPackage env fun workPackage connection =>
    Exec.thrown ((sendDataPrepareWorkRequests cfg
      { connection with remoteNodeId := workPackage.nodeId } workPackage).run
        w.beginDispatch.dispatcher) ≠ some poolRanDry

/-- The package of the call needs no more contexts than there are: at most the
free places of its send queue and, for positions inside the ring, its chunks. -/
def Fits (cfg : SendConfig) (w : SendWorld) (env : DispatchEnv) : Prop :=
  OnPackage env fun workPackage connection =>
    w.dispatcher.room cfg workPackage.nodeId ≤ w.freeContexts cfg ∨
      InRing cfg connection workPackage ∧
        numRequests (w.dispatcher.room cfg workPackage.nodeId)
          (workPackage.total connection.sendBufferSize) cfg.maxRecvBufferSize
          workPackage.flowControlData ≤ w.freeContexts cfg

/-- The package of the call has its positions inside the ring. -/
def PackageInRing (cfg : SendConfig) (env : DispatchEnv) : Prop :=
  OnPackage env fun workPackage connection => InRing cfg connection workPackage

instance (cfg : SendConfig) (w : SendWorld) (env : DispatchEnv) :
    Decidable (NeverDry cfg w env) :=
  inferInstanceAs (Decidable (OnPackage env fun _ _ => ¬ (Exec.thrown _ = some poolRanDry)))

section
variable {cfg : SendConfig} {w : SendWorld} {env : DispatchEnv}

theorem onPackage_imp {P Q : NextWorkPackage → Connection → Prop}
    (h : OnPackage env fun workPackage connection =>
      P workPackage connection → Q workPackage connection)
    (hP : OnPackage env P) : OnPackage env Q := by
  unfold OnPackage at h hP ⊢
  split
  · next workPackage connection hwp hc =>
    rw [hwp, hc] at h hP
    exact fun hne => h hne (hP hne)
  · trivial

theorem onPackage_of_forall {P : NextWorkPackage → Connection → Prop}
    (h : ∀ workPackage connection, P workPackage connection) : OnPackage env P := by
  unfold OnPackage
  split
  · exact fun _ => h _ _
  · trivial

theorem Covered.holds (h : w.Covered cfg) :
    ∃ xs, w.beginDispatch.dispatcher.workRequestCtxPool.Holds xs ∧
      xs.length = w.freeContexts cfg := by
  obtain ⟨free, h⟩ := h
  refine ⟨free, h.holds, ?_⟩
  have hlen := h.holds.length_add
  rw [h.poolSize] at hlen
  rw [freeContexts]
  omega

theorem Covered.neverDry_of_fits (h : w.Covered cfg) (hfits : Fits cfg w env) :
    NeverDry cfg w env := by
  obtain ⟨xs, hpool, hfree⟩ := h.holds
  refine onPackage_imp (onPackage_of_forall fun workPackage connection hneeds => ?_) hfits
  rcases hneeds with hroom | ⟨hring, hneeds⟩
  · exact thrown_prepare_ne hpool (hfree ▸ hroom)
  · have hring' : InRing cfg { connection with remoteNodeId := workPackage.nodeId } workPackage :=
      ⟨hring.arith, hring.chunk, hring.posBack, hring.posFront⟩
    rw [ne_eq, hring'.thrown_prepare_iff hpool, hfree]
    exact Nat.not_lt.mpr hneeds

theorem Covered.neverDry_iff (h : w.Covered cfg) (hring : PackageInRing cfg env) :
    NeverDry cfg w env ↔ Fits cfg w env := by
  refine ⟨fun hdry => ?_, h.neverDry_of_fits⟩
  obtain ⟨xs, hpool, hfree⟩ := h.holds
  refine onPackage_imp (onPackage_imp (onPackage_of_forall
    fun workPackage connection hring hdry => ?_) hring) hdry
  rw [ne_eq, (hring.toNode workPackage.nodeId).thrown_prepare_iff hpool, hfree] at hdry
  exact Or.inr ⟨hring, Nat.not_lt.mp hdry⟩

/-- Outstanding are requests to these nodes only, and no context is lost. -/
structure Within (cfg : SendConfig) (nodes : Finset NodeId) (w : SendWorld) : Prop where
  covered : w.Covered cfg
  balanced : w.Balanced cfg
  nodes : ∀ p ∈ w.outstanding, p.nodeId ∈ nodes

/-- The package of the call is for one of these nodes. -/
def SendsTo (nodes : Finset NodeId) (env : DispatchEnv) : Prop :=
  OnPackage env fun workPackage _ => workPackage.nodeId ∈ nodes

variable {nodes : Finset NodeId} {w' : SendWorld} {workPackage : NextWorkPackage}

theorem nodes_of_sends (h : w.Covered cfg) (hwp : env.workPackage = some workPackage)
    (hto : SendsTo nodes env) (hs : Sends cfg env workPackage w w')
    (hw : ∀ p ∈ w.outstanding, p.nodeId ∈ nodes) : ∀ p ∈ w'.outstanding, p.nodeId ∈ nodes := by
  obtain ⟨free, h⟩ := h
  cases hs with
  | idle => exact hw
  | sent hne hc hconnection hrun =>
    have hnode : workPackage.nodeId ∈ nodes := by
      unfold SendsTo OnPackage at hto
      rw [hwp, hc] at hto
      exact hto hne
    obtain ⟨ids, rest, p, rfl, hlen, hp, hsize,
      ⟨rfl, rfl⟩ | ⟨-, -, sendWrs, posted, hposted, rfl⟩⟩ :=
      run_sendData_ok (w := w.connect _) h.holds hrun
    · exact hw
    · intro q hq
      rcases List.mem_append.mp hq with hq | hq
      · exact hw q hq
      · obtain ⟨wr, -, rfl⟩ := List.mem_map.mp hq
        rw [hconnection]
        exact hnode

theorem nodes_of_polls (hp : Polls cfg env w w') (hw : ∀ p ∈ w.outstanding, p.nodeId ∈ nodes) :
    ∀ p ∈ w'.outstanding, p.nodeId ∈ nodes := by
  cases hp with
  | nothing => exact hw
  | all hd =>
    intro p hp
    have hleft : p ∈ (w.polled cfg env).2 := hp
    exact hw p ((pollOutstanding_perm _ _).mem_iff.mpr (List.mem_append_right _ hleft))

theorem Within.step (h : Within cfg nodes w) (hretry : NoRetry env) (hto : SendsTo nodes env)
    (hs : step cfg w env = some w') : Within cfg nodes w' := by
  refine ⟨h.covered.step hs, h.balanced.step hretry hs, ?_⟩
  obtain ⟨workPackage, hwp, ⟨w₁, hsends, hpolls | ⟨nodeId, d, hd, -⟩⟩ |
    ⟨-, ⟨-, hpolls⟩ | ⟨nodeId, -, rfl⟩⟩⟩ := step_cases hs
  · exact nodes_of_polls hpolls (nodes_of_sends h.covered.begin hwp hto hsends h.nodes)
  · exact absurd hd (completed_ne_disconnected hretry)
  · exact nodes_of_polls hpolls h.nodes
  · exact h.nodes

/-- A completion queue with room for the send queues of all nodes that are sent to is large
enough. -/
theorem Within.fits (hw : Within cfg nodes w) (hto : SendsTo nodes env)
    (hcard : nodes.card * cfg.ibSQSize.toNat ≤ cfg.ibSharedSCQSize.toNat) : Fits cfg w env := by
  obtain ⟨free, h⟩ := hw.balanced
  refine onPackage_imp (onPackage_of_forall fun workPackage _ hnode => Or.inl ?_) hto
  have hsum : ∑ n ∈ nodes, w.dispatcher.sendQueuePending n = w.outstanding.length := by
    rw [← h.sum_sendQueuePending]
    refine Finset.sum_subset (Finset.subset_univ nodes) fun n _ hn => ?_
    rw [h.sendQueuePending, List.countP_eq_zero]
    intro p hp heq
    exact hn (of_decide_eq_true heq ▸ hw.nodes p hp)
  have hle : ∑ n ∈ nodes, (w.dispatcher.sendQueuePending n +
      if n = workPackage.nodeId then w.dispatcher.room cfg workPackage.nodeId else 0) ≤
        ∑ _n ∈ nodes, cfg.ibSQSize.toNat := by
    refine Finset.sum_le_sum fun n _ => ?_
    have hroom := h.room n
    split
    · next heq =>
      rw [SendDispatcher.room, heq]
      rw [heq] at hroom
      omega
    · omega
  rw [Finset.sum_add_distrib, hsum, Finset.sum_ite_eq' nodes, if_pos hnode, Finset.sum_const,
    Nat.nsmul_eq_mul] at hle
  rw [freeContexts, h.nonReturnedBuffers]
  omega

theorem init_covered (cfg : SendConfig) : (init cfg).Covered cfg := ⟨_, Covers.init cfg⟩

/-- However a run goes, the completion queue has room for all outstanding work requests. -/
theorem outstanding_le {envs : List DispatchEnv}
    (hrun : Lts.exec (step cfg) (init cfg) envs = some w) :
    w.outstanding.length ≤ cfg.ibSharedSCQSize.toNat := by
  obtain ⟨free, h⟩ := Lts.exec_invariant (fun w env w' h hs => Covered.step h hs)
    (init_covered cfg) hrun
  have := h.length
  omega

end

/-- **Completion capacity.**  In no run do the outstanding work requests exceed
the completion queue.  In a run whose packages fit the free contexts `Pop` is
never called on an exhausted pool; and where the positions of the packages are
inside the ring, in no other run.  They fit where the completion queue has room for the
send queues of all nodes that are sent to, as long as no send queue fails. -/
theorem capacity_of_fits (cfg : SendConfig) (envs : List DispatchEnv) :
    (∀ bs, bs <+: envs → ∀ w, Lts.exec (step cfg) (init cfg) bs = some w →
      w.outstanding.length ≤ cfg.ibSharedSCQSize.toNat) ∧
    (Lts.Along (step cfg) (Fits cfg) (init cfg) envs →
      Lts.Along (step cfg) (NeverDry cfg) (init cfg) envs) ∧
    ((∀ env ∈ envs, PackageInRing cfg env) →
      Lts.Along (step cfg) (NeverDry cfg) (init cfg) envs →
        Lts.Along (step cfg) (Fits cfg) (init cfg) envs) ∧
    ∀ nodes : Finset NodeId, nodes.card * cfg.ibSQSize.toNat ≤ cfg.ibSharedSCQSize.toNat →
      (∀ env ∈ envs, NoRetry env ∧ SendsTo nodes env) →
        Lts.Along (step cfg) (Fits cfg) (init cfg) envs := by
  refine ⟨fun bs _ w hrun => outstanding_le hrun, fun hfits => ?_, fun hring hdry => ?_,
    fun nodes hcard henvs => ?_⟩
  · exact Lts.Along.imp (fun w env h hp => h.neverDry_of_fits hp)
      (fun w env w' h _ hs => h.step hs) (init_covered cfg) hfits
  · have hboth := hdry.and (Lts.along_of_forall_mem hring (init cfg))
    exact Lts.Along.imp (fun w env h hp => (h.neverDry_iff hp.2).mp hp.1)
      (fun w env w' h _ hs => h.step hs) (init_covered cfg) hboth
  · have hinit : Within cfg nodes (init cfg) := ⟨init_covered cfg, ⟨_, Accounts.init cfg⟩, nofun⟩
    exact Lts.Along.imp (I := Within cfg nodes) (fun w env h hp => h.fits hp.2 hcard)
      (fun w env w' h hp hs => h.step hp.1 hp.2 hs) hinit (Lts.along_of_forall_mem henvs _)

/-- One node, whose send queue is as large as the completion queue. -/
theorem capacity_of_fits_one :
    Lts.Along (step smallConfig) (NeverDry smallConfig) (init smallConfig)
      [sendTo 1 0 16 [⟨0, .success⟩], sendTo 1 16 20 []] := by
  have hroom : Lts.Along (step smallConfig) (fun w env => OnPackage env fun workPackage _ =>
      w.dispatcher.room smallConfig workPackage.nodeId ≤ w.freeContexts smallConfig)
      (init smallConfig) [sendTo 1 0 16 [⟨0, .success⟩], sendTo 1 16 20 []] := by
    decide +kernel
  have hfits := Lts.Along.imp (I := fun _ => True) (Q := Fits smallConfig)
    (fun w env _ h => onPackage_imp (onPackage_of_forall fun _ _ h => Or.inl h) h)
    (fun _ _ _ _ _ _ => trivial) trivial hroom
  exact (capacity_of_fits smallConfig _).2.1 hfits

/-- Two nodes: the first holds all four contexts when a package of one request
for the second one comes. -/
theorem capacity_exhausted : ∃ w,
    Lts.exec (step smallConfig) (init smallConfig) [sendTo 1 0 16 []] = some w ∧
    w.outstanding.length = 4 ∧ w.dispatcher.room smallConfig 2 = 4 ∧
    ¬ NeverDry smallConfig w (sendTo 2 0 4 []) := by
  have hmap : (Lts.exec (step smallConfig) (init smallConfig) [sendTo 1 0 16 []]).map (fun w =>
      (w.outstanding.length, w.dispatcher.room smallConfig 2,
        decide (NeverDry smallConfig w (sendTo 2 0 4 [])))) = some (4, 4, false) := by
    decide +kernel
  obtain ⟨w, hw, hv⟩ := Option.map_eq_some_iff.mp hmap
  simp only [Prod.mk.injEq, decide_eq_false_iff_not] at hv
  exact ⟨w, hw, hv⟩

end SendWorld

end Ibdxnet.Msgrc
