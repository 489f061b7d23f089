import Ibdxnet.Msgrc.SendAccounting

/-!
# What the send handler is told

`GetNextDataToSend` is called with `m_prevWorkPackageResults` of the previous
call.  `Reports` says that these results describe what the previous call handed
to `ibv_post_send`:

    m_numBytesPosted = bytes of the work requests posted
    m_fcDataPosted   = flow control data of the work requests posted

A handler that moves its back pointer by `m_numBytesPosted` then posts its
stream without gap or repetition: the ring offsets posted to a node are those
of consecutive stream positions (`Streams`).

The handler of a `DisconnectedException` resets the results.  When the
exception comes out of the poll after the package was posted, the results deny
what was posted.
-/

namespace Ibdxnet.Msgrc

open Ibdxnet.Con Sys

/-! ## Polling leaves the results alone -/

/-- What completions do not change: the results, and that the pool is well formed. -/
def KeepsResults (d d' : SendDispatcher) : Prop :=
  d'.prevWorkPackageResults = d.prevWorkPackageResults ∧
    ∀ xs, d.workRequestCtxPool.Holds xs → ∃ ys, d'.workRequestCtxPool.Holds ys

namespace KeepsResults

theorem refl (d : SendDispatcher) : KeepsResults d d := ⟨rfl, fun xs h => ⟨xs, h⟩⟩

theorem trans {d d' d'' : SendDispatcher} (h : KeepsResults d d') (h' : KeepsResults d' d'') :
    KeepsResults d d'' := by
  refine ⟨h'.1.trans h.1, fun xs hx => ?_⟩
  obtain ⟨ys, hy⟩ := h.2 xs hx
  exact h'.2 ys hy

theorem of_eq {d d' : SendDispatcher} (h : d'.prevWorkPackageResults = d.prevWorkPackageResults)
    (hpool : d'.workRequestCtxPool = d.workRequestCtxPool) : KeepsResults d d' :=
  ⟨h, fun xs hx => ⟨xs, by rw [hpool]; exact hx⟩⟩

theorem pushCtx (ctx : Nat) (d : SendDispatcher) :
    KeepsResults d (Exec.final ((SendDispatcher.pushCtx ctx).run d)) := by
  have hfinal : Exec.final ((SendDispatcher.pushCtx ctx).run d) =
      { d with workRequestCtxPool :=
        Exec.final ((SendWorkRequestCtxPool.push ctx).run d.workRequestCtxPool) } := by
    rw [SendDispatcher.pushCtx, Exec.run_zoom]
    cases (SendWorkRequestCtxPool.push ctx).run d.workRequestCtxPool <;> rfl
  rw [hfinal]
  exact ⟨rfl, fun xs hx => hx.final_push ctx⟩

theorem completeStatus (wc : IbvWc) (d : SendDispatcher) :
    KeepsResults d (Exec.final ((SendDispatcher.completeStatus wc).run d)) := by
  simp only [SendDispatcher.completeStatus, EStateM.run_bind, EStateM.run_get]
  cases wc.status with
  | success => exact of_eq (by simp) (by simp)
  | wrFlushErr =>
    simp only [Exec.run_ite]
    split
    · exact of_eq (by simp) (by simp)
    · exact refl d
  | other => exact refl d
  | retryExcErr =>
    simp only [Exec.run_ite]
    split
    · exact refl d
    · exact Exec.final_bind (R := KeepsResults) trans (pushCtx wc.wrId d) fun _ d' => refl d'

theorem complete (wc : IbvWc) (d : SendDispatcher) :
    KeepsResults d (Exec.final ((SendDispatcher.complete wc).run d)) := by
  refine Exec.final_bind (R := KeepsResults) trans (completeStatus wc d) fun _ d₁ => ?_
  refine Exec.final_bind (R := KeepsResults) trans ?_ fun _ d₂ => of_eq rfl rfl
  have hpush := pushCtx wc.wrId d₁
  rw [Exec.run_tryCatch]
  cases hrun : (SendDispatcher.pushCtx wc.wrId).run d₁ <;> rw [hrun] at hpush <;> exact hpush

theorem completeAll (wcs : List IbvWc) (d : SendDispatcher) :
    KeepsResults d (Exec.final ((SendDispatcher.completeAll wcs).run d)) := by
  induction wcs generalizing d with
  | nil => exact refl d
  | cons wc wcs ih =>
    exact Exec.final_bind (R := KeepsResults) trans (complete wc d) fun _ d₁ => ih d₁

end KeepsResults

/-! ## The work requests of one package -/

/-- Positions inside the ring, and no sum of them exceeds the arithmetic. -/
def ValidPackage (cfg : SendConfig) (N : Nat) (connection : Connection)
    (workPackage : NextWorkPackage) : Prop :=
  workPackage.posBackRel < connection.sendBufferSize ∧
    workPackage.posFrontRel < connection.sendBufferSize ∧
    connection.sendBufferSize + cfg.recvBufferSize * cfg.maxSGEs < N

section
variable {cfg : SendConfig} {N : Nat} {connection : Connection} {workPackage : NextWorkPackage}
  {d : SendDispatcher} {posted : List IbvSendWr} {ids : List Nat} {sourceNodeId : NodeId}

/-- The work requests add up to the results, whatever the package. -/
theorem posted_sums (hA : cfg.arith.Lawful)
    (hlen : ids.length = (packageRequests cfg d connection workPackage).length)
    (h : posted.map IbvSendWr.unlinked = List.zipWith (fun ctx r => r.toWr sourceNodeId ctx) ids
      (packageRequests cfg d connection workPackage)) :
    let results := packageResults cfg connection workPackage
      (packageRequests cfg d connection workPackage)
    results.numBytesPosted = cfg.arith.norm (posted.map IbvSendWr.length).sum ∧
      results.fcDataPosted.toNat =
        (posted.map fun wr => wr.immData.flowControlData.toNat).sum := by
  have hlengths : posted.map IbvSendWr.length =
      (packageRequests cfg d connection workPackage).map SendRequest.length :=
    SendWorld.map_posted hlen h (fun _ => rfl) (fun _ _ => rfl)
  have hfc : (posted.map fun wr => wr.immData.flowControlData.toNat) =
      (packageRequests cfg d connection workPackage).map fun r => r.fcData.toNat :=
    SendWorld.map_posted hlen h (fun _ => rfl) (fun _ _ => rfl)
  refine ⟨?_, ?_⟩
  · rw [hlengths]
    exact foldl_addSendSize_eq hA _ _ _
  · have hfirst : packageRequests cfg d connection workPackage = [] ∨
        ∃ r rs, packageRequests cfg d connection workPackage = r :: rs ∧
          r.fcData = workPackage.flowControlData ∧ ∀ r' ∈ rs, r'.fcData = 0 :=
      requests_fcData _ _ _
    rw [hfc, packageResults]
    rcases hfirst with hnil | ⟨r, rs, hcons, hr, hzero⟩
    · rw [hnil]
      rfl
    · have hrest : (rs.map fun r => r.fcData.toNat).sum = 0 := by
        rw [List.sum_eq_zero_iff]
        intro x hx
        obtain ⟨r', hr', rfl⟩ := List.mem_map.mp hx
        rw [hzero r' hr']
        rfl
      simp [hcons, hr, hrest]

/-- For a valid package the work requests are not empty-handed, and cover the
ring from the back position on. -/
theorem posted_of_valid (hA : cfg.arith.ExactBelow N)
    (hM : 0 < cfg.recvBufferSize * cfg.maxSGEs) (hvalid : ValidPackage cfg N connection workPackage)
    (hlen : ids.length = (packageRequests cfg d connection workPackage).length)
    (h : posted.map IbvSendWr.unlinked = List.zipWith (fun ctx r => r.toWr sourceNodeId ctx) ids
      (packageRequests cfg d connection workPackage)) :
    let results := packageResults cfg connection workPackage
      (packageRequests cfg d connection workPackage)
    posted.flatMap IbvSendWr.offsets = Ring.window id connection.sendBufferSize
        workPackage.posBackRel results.numBytesPosted ∧
      (posted ≠ [] → results.numBytesPosted ≠ 0 ∨ results.fcDataPosted ≠ 0) := by
  obtain ⟨hb, hf, hN⟩ := hvalid
  have hMax : cfg.maxRecvBufferSize = cfg.recvBufferSize * cfg.maxSGEs := hA.mul (by omega)
  have hregion := regionLength_lt workPackage.posFrontRel hb
  have hcover : (packageRequests cfg d connection workPackage).flatMap SendRequest.offsets =
      Ring.window id connection.sendBufferSize workPackage.posBackRel
        (packageResults cfg connection workPackage
          (packageRequests cfg d connection workPackage)).numBytesPosted := by
    rw [packageRequests, flatMap_offsets_requests hA hMax hN _ hb hf, packageResults,
      foldl_addSendSize_requests hA hMax hN _ hb hf (by omega), Nat.zero_add]
  have hbounds : ∀ r ∈ packageRequests cfg d connection workPackage,
      r.sendSize ≤ cfg.recvBufferSize * cfg.maxSGEs ∧ (0 < r.sendSize ∨ r.fcData ≠ 0) ∧
        r.offsets.length = r.sendSize := requests_bounds hA hMax hN hM _ hb hf
  have hoffsets : posted.map IbvSendWr.offsets =
      (packageRequests cfg d connection workPackage).map SendRequest.offsets :=
    SendWorld.map_posted hlen h (fun _ => rfl) (fun _ _ => rfl)
  refine ⟨by rw [List.flatMap_def, hoffsets, ← List.flatMap_def, hcover], fun hne => ?_⟩
  have hfirst : packageRequests cfg d connection workPackage = [] ∨
      ∃ r rs, packageRequests cfg d connection workPackage = r :: rs ∧
        r.fcData = workPackage.flowControlData ∧ ∀ r' ∈ rs, r'.fcData = 0 :=
    requests_fcData _ _ _
  rcases hfirst with hnil | ⟨r, rs, hcons, hr, -⟩
  · rw [hnil, List.map_nil, List.map_eq_nil_iff] at hoffsets
    exact absurd hoffsets hne
  · obtain ⟨-, hnonempty, hlength⟩ := hbounds r (by rw [hcons]; exact List.mem_cons_self)
    rcases hnonempty with hpos | hfcr
    · left
      have hwindow := congrArg List.length hcover
      rw [Ring.length_window, hcons, List.flatMap_cons, List.length_append] at hwindow
      rw [hcons]
      omega
    · right
      simpa [packageResults, hcons, ← hr] using hfcr

end

/-! ## What the handler is told -/

/-- The results of the last call describe what it handed to `ibv_post_send`. -/
structure Reports (cfg : SendConfig) (w : SendWorld) : Prop where
  numBytes : w.dispatcher.prevWorkPackageResults.numBytesPosted =
    cfg.arith.norm (w.posted.map fun p => p.wr.length).sum
  fcData : w.dispatcher.prevWorkPackageResults.fcDataPosted.toNat =
    (w.posted.map fun p => p.wr.immData.flowControlData.toNat).sum
  nodeId : ∀ p ∈ w.posted, p.nodeId = w.dispatcher.prevWorkPackageResults.nodeId

namespace SendWorld

def PoolHolds (w : SendWorld) : Prop := ∃ xs, w.dispatcher.workRequestCtxPool.Holds xs

/-- There is nothing to post for the package: no room in the send queue, or an empty package. -/
def NothingToPost (cfg : SendConfig) (w : SendWorld) (workPackage : NextWorkPackage) : Prop :=
  cfg.ibSQSize.toNat ≤ w.dispatcher.sendQueuePending workPackage.nodeId ∨
    workPackage.posBackRel = workPackage.posFrontRel ∧ workPackage.flowControlData = 0

/-- `P` holds of the package the call has a connection for, if it has one. -/
def OnPackage (env : DispatchEnv) (P : NextWorkPackage → Connection → Prop) : Prop :=
  match env.workPackage, env.getConnection with
  | some workPackage, .ok connection =>
    workPackage.nodeId ≠ nodeIdInvalid → P workPackage connection
  | _, _ => True

/-- The condition on a call: no disconnect is polled together with posting. -/
def PostsOrDisconnects (cfg : SendConfig) (w : SendWorld) (env : DispatchEnv) : Prop :=
  OnPackage env fun workPackage _ => NothingToPost cfg w workPackage ∨ NoRetry env

/-- The package of the call is valid. -/
def Valid (cfg : SendConfig) (N : Nat) (_ : SendWorld) (env : DispatchEnv) : Prop :=
  OnPackage env fun workPackage connection => ValidPackage cfg N connection workPackage

/-- The bytes the handler has been told of, the results waiting for it included. -/
def told (w : SendWorld) (n : NodeId) : Nat :=
  w.reported n + if w.dispatcher.prevWorkPackageResults.nodeId = n then
    w.dispatcher.prevWorkPackageResults.numBytesPosted else 0

/-- A handler that goes by the results: its next package for a node starts where
the bytes it was told of end, in a ring of `S n` bytes with its first byte at `start n`. -/
def Conforms (S start : NodeId → Nat) (w : SendWorld) (env : DispatchEnv) : Prop :=
  OnPackage env fun workPackage connection =>
    connection.sendBufferSize = S workPackage.nodeId ∧
      workPackage.posBackRel =
        (start workPackage.nodeId + w.told workPackage.nodeId) % S workPackage.nodeId

instance OnPackage.instDecidable (env : DispatchEnv) (P : NextWorkPackage → Connection → Prop)
    [∀ workPackage connection, Decidable (P workPackage connection)] :
    Decidable (OnPackage env P) :=
  match hw : env.workPackage, hc : env.getConnection with
  | some workPackage, .ok connection =>
    decidable_of_iff (workPackage.nodeId ≠ nodeIdInvalid → P workPackage connection)
      (by rw [OnPackage, hw, hc])
  | none, _ => isTrue (by rw [OnPackage, hw]; trivial)
  | some _, .error _ => isTrue (by rw [OnPackage, hw, hc]; trivial)

instance (cfg : SendConfig) (w : SendWorld) (env : DispatchEnv) :
    Decidable (PostsOrDisconnects cfg w env) :=
  inferInstanceAs (Decidable (OnPackage env fun _ _ => (_ ∨ _ ∧ _) ∨ NoRetry env))

instance (cfg : SendConfig) (N : Nat) (w : SendWorld) (env : DispatchEnv) :
    Decidable (Valid cfg N w env) :=
  inferInstanceAs (Decidable (OnPackage env fun _ _ => _ ∧ _ ∧ _))

instance (S start : NodeId → Nat) (w : SendWorld) (env : DispatchEnv) :
    Decidable (Conforms S start w env) :=
  inferInstanceAs (Decidable (OnPackage env fun _ _ => _ ∧ _))

/-- What one call adds to the logs, from `w` to `w'`. -/
structure Logs (cfg : SendConfig) (env : DispatchEnv) (w w' : SendWorld) : Prop where
  reports : Reports cfg w'
  pool : w'.PoolHolds
  history : w'.history = w.history ++ w'.posted
  reported : w'.reported = w.told
  valid : w'.posted = [] ∧ w'.dispatcher.prevWorkPackageResults.numBytesPosted = 0 ∨
    ∃ workPackage connection, env.workPackage = some workPackage ∧
      workPackage.nodeId ≠ nodeIdInvalid ∧ env.getConnection = .ok connection ∧
      w'.dispatcher.prevWorkPackageResults.nodeId = workPackage.nodeId ∧
      ∀ N, cfg.arith.ExactBelow N → 0 < cfg.recvBufferSize * cfg.maxSGEs →
        ValidPackage cfg N connection workPackage →
        w'.posted.flatMap (fun p => p.wr.offsets) =
            Ring.window id connection.sendBufferSize workPackage.posBackRel
              w'.dispatcher.prevWorkPackageResults.numBytesPosted ∧
          (w'.posted ≠ [] → w'.dispatcher.prevWorkPackageResults.numBytesPosted ≠ 0 ∨
            w'.dispatcher.prevWorkPackageResults.fcDataPosted ≠ 0)

section
variable {cfg : SendConfig} {N : Nat} {env : DispatchEnv} {workPackage : NextWorkPackage}
  {w w' w₁ : SendWorld}

theorem OnPackage.apply {P : NextWorkPackage → Connection → Prop} {connection : Connection}
    (h : OnPackage env P) (hwp : env.workPackage = some workPackage)
    (hc : env.getConnection = .ok connection) (hne : workPackage.nodeId ≠ nodeIdInvalid) :
    P workPackage connection := by
  rw [OnPackage, hwp, hc] at h
  exact h hne

theorem packageRequests_nothing {connection : Connection} (h : NothingToPost cfg w workPackage) :
    packageRequests cfg w.dispatcher connection workPackage = [] := by
  rw [packageRequests]
  rcases h with h | ⟨h, hfc⟩
  · rw [Nat.sub_eq_zero_of_le h]
    rfl
  · rw [h, hfc, requests_self]

theorem told_eq_update (w : SendWorld) : w.told =
    Function.update w.reported w.dispatcher.prevWorkPackageResults.nodeId
      (w.reported w.dispatcher.prevWorkPackageResults.nodeId +
        w.dispatcher.prevWorkPackageResults.numBytesPosted) := by
  funext n
  rw [told, Function.update_apply]
  by_cases h : n = w.dispatcher.prevWorkPackageResults.nodeId
  · rw [if_pos h, if_pos h.symm, h]
  · rw [if_neg h, if_neg (Ne.symm h), Nat.add_zero]

theorem reports_nil (hA : cfg.arith.Lawful) (hposted : w.posted = [])
    (hbytes : w.dispatcher.prevWorkPackageResults.numBytesPosted = 0)
    (hfc : w.dispatcher.prevWorkPackageResults.fcDataPosted = 0) : Reports cfg w where
  numBytes := by rw [hposted, hbytes]; exact hA.zero.symm
  fcData := by rw [hposted, hfc]; rfl
  nodeId p hp := by rw [hposted] at hp; cases hp

variable (env) in
theorem Logs.beginDispatch (hA : cfg.arith.Lawful) (hpool : w.PoolHolds) :
    Logs cfg env w w.beginDispatch where
  reports := reports_nil hA rfl rfl rfl
  pool := hpool
  history := (List.append_nil _).symm
  reported := w.told_eq_update.symm
  valid := Or.inl ⟨rfl, rfl⟩

/-- Completions change nothing of it. -/
theorem Logs.afterPoll {d : SendDispatcher} (h : Logs cfg env w w')
    (hd : KeepsResults w'.dispatcher d) : Logs cfg env w (w'.afterPoll cfg env d) := by
  obtain ⟨xs, hxs⟩ := h.pool
  obtain ⟨hreports, -, hhistory, hreported, hvalid⟩ := h
  have hr : (w'.afterPoll cfg env d).dispatcher.prevWorkPackageResults =
      w'.dispatcher.prevWorkPackageResults := hd.1
  refine ⟨⟨?_, ?_, ?_⟩, hd.2 xs hxs, hhistory, hreported, ?_⟩
  · rw [hr]; exact hreports.numBytes
  · rw [hr]; exact hreports.fcData
  · rw [hr]; exact hreports.nodeId
  · rw [hr]; exact hvalid

variable (cfg env w) in
theorem keepsResults_completed :
    KeepsResults w.dispatcher (Exec.final (w.completed cfg env)) :=
  KeepsResults.completeAll _ _

theorem Logs.polls (h : Logs cfg env w w₁) (hp : Polls cfg env w₁ w') : Logs cfg env w w' := by
  cases hp with
  | nothing => exact h
  | all hd =>
    have hkeeps := keepsResults_completed cfg env w₁
    rw [hd] at hkeeps
    exact h.afterPoll hkeeps

/-- A handled disconnect resets the results, which is right if nothing was posted. -/
theorem Logs.disconnect (hA : cfg.arith.Lawful) (h : Logs cfg env w w') (hposted : w'.posted = [])
    (nodeId : NodeId) : Logs cfg env w (w'.disconnect nodeId) where
  reports := reports_nil hA hposted rfl rfl
  pool := h.pool
  history := h.history
  reported := h.reported
  valid := Or.inl ⟨hposted, rfl⟩

theorem Logs.sends (hA : cfg.arith.Lawful) (hpool : w.PoolHolds)
    (hwp : env.workPackage = some workPackage) (hcond : PostsOrDisconnects cfg w env)
    (hs : Sends cfg env workPackage w.beginDispatch w₁) :
    Logs cfg env w w₁ ∧ (w₁.posted = [] ∨ NoRetry env) := by
  have hbegin := Logs.beginDispatch env hA hpool
  cases hs with
  | idle => exact ⟨hbegin, Or.inl rfl⟩
  | sent hne hc hconnection hrun =>
    next c connection ret w₂ =>
    have hnothing := hcond.apply hwp hc hne
    obtain ⟨xs, hxs⟩ := hpool
    obtain ⟨ids, rest, p, rfl, hlen, hp, -,
      ⟨rfl, rfl⟩ | ⟨-, hids, sendWrs, posted, hposted, rfl⟩⟩ :=
      run_sendData_ok (w := w.beginDispatch.connect connection) hxs hrun
    · -- nothing was posted: the results say so
      have hnil := List.length_eq_zero_iff.mp hlen.symm
      have hbytes : (packageResults cfg connection workPackage (packageRequests cfg
          (w.beginDispatch.connect connection).dispatcher connection workPackage)).numBytesPosted =
            0 := by rw [hnil]; rfl
      refine ⟨⟨reports_nil hA rfl hbytes ?_, ⟨_, hp⟩, hbegin.history, hbegin.reported,
        Or.inl ⟨rfl, hbytes⟩⟩, Or.inl rfl⟩
      simp [SendDispatcher.prepare, packageResults, hnil]
    · obtain ⟨hbytes, hfc⟩ := posted_sums hA hlen hposted
      have hbuffer : connection.sendBufferSize = c.sendBufferSize := by rw [hconnection]
      have hremote : connection.remoteNodeId = workPackage.nodeId := by rw [hconnection]
      refine ⟨⟨⟨?_, ?_, ?_⟩, ⟨_, hp⟩, rfl, hbegin.reported, Or.inr ⟨workPackage, c, hwp, hne, hc,
        rfl, ?_⟩⟩, Or.inr (hnothing.resolve_left fun hno => ?_)⟩
      · change _ = cfg.arith.norm ((posted.map (PostedWr.mk connection.remoteNodeId)).map _).sum
        rw [List.map_map]
        exact hbytes
      · change _ = ((posted.map (PostedWr.mk connection.remoteNodeId)).map _).sum
        rw [List.map_map]
        exact hfc
      · intro q hq
        obtain ⟨wr, -, rfl⟩ := List.mem_map.mp hq
        exact hremote
      · intro N hN hM hvalid
        have hvalid' : ValidPackage cfg N connection workPackage := by
          rw [hconnection]
          exact hvalid
        obtain ⟨hoffsets, hnonzero⟩ := posted_of_valid hN hM hvalid' hlen hposted
        refine ⟨?_, fun hne' => hnonzero fun hnil => hne' (by rw [hnil]; rfl)⟩
        change (posted.map (PostedWr.mk connection.remoteNodeId)).flatMap _ = _
        rw [List.flatMap_map, ← hbuffer]
        exact hoffsets
      · exact hids (List.length_eq_zero_iff.mp (hlen.trans
          (List.length_eq_zero_iff.mpr (packageRequests_nothing hno))))

theorem Logs.step (hA : cfg.arith.Lawful) (hpool : w.PoolHolds)
    (hcond : PostsOrDisconnects cfg w env) (hs : step cfg w env = some w') : Logs cfg env w w' := by
  have hbegin := Logs.beginDispatch env hA hpool
  obtain ⟨workPackage, hwp, ⟨w₁, hsends, hpolls⟩ | ⟨-, ⟨-, hpolls⟩ | ⟨nodeId, -, rfl⟩⟩⟩ :=
    step_cases hs
  · obtain ⟨h, hposted⟩ := Logs.sends hA hpool hwp hcond hsends
    rcases hpolls with hpolls | ⟨nodeId, d, hd, rfl⟩
    · exact h.polls hpolls
    · rcases hposted with hposted | hretry
      · have hkeeps := keepsResults_completed cfg env w₁
        rw [hd] at hkeeps
        exact (h.afterPoll hkeeps).disconnect hA hposted nodeId
      · exact absurd hd (completed_ne_disconnected hretry)
  · exact hbegin.polls hpolls
  · exact hbegin.disconnect hA rfl nodeId

end

/-! ## The stream of a node -/

/-- The offsets posted to each node are those of the stream positions from
`start n` on, each once and in order, up to what the handler has been told. -/
def Streams (S start : NodeId → Nat) (w : SendWorld) : Prop :=
  ∀ n, (w.history.filter fun p => p.nodeId = n).flatMap (fun p => p.wr.offsets) =
    Ring.window id (S n) (start n) (w.told n)

theorem Streams.step {cfg : SendConfig} {N : Nat} {S start : NodeId → Nat} {env : DispatchEnv}
    {w w' : SendWorld} (hN : cfg.arith.ExactBelow N) (hM : 0 < cfg.recvBufferSize * cfg.maxSGEs)
    (h : w.Streams S start) (hlogs : Logs cfg env w w') (hvalid : Valid cfg N w env)
    (hconf : Conforms S start w env) : w'.Streams S start := by
  intro n
  have htold : w'.told n = w.told n + if w'.dispatcher.prevWorkPackageResults.nodeId = n then
      w'.dispatcher.prevWorkPackageResults.numBytesPosted else 0 := by
    rw [told, hlogs.reported]
  rw [hlogs.history, List.filter_append, List.flatMap_append, h n, htold]
  rcases hlogs.valid with ⟨hnil, hzero⟩ | ⟨workPackage, connection, hwp, hne, hc, hnode, hcover⟩
  · simp [hnil, hzero]
  · obtain ⟨hsize, hback⟩ := hconf.apply hwp hc hne
    obtain ⟨hoffsets, -⟩ := hcover N hN hM (hvalid.apply hwp hc hne)
    by_cases hn : workPackage.nodeId = n
    · subst hn
      have hall : (w'.posted.filter fun p => p.nodeId = workPackage.nodeId) = w'.posted := by
        rw [List.filter_eq_self]
        intro p hp
        rw [hlogs.reports.nodeId p hp, hnode]
        exact decide_eq_true rfl
      rw [hall, hoffsets, hsize, hback, Ring.window_mod, if_pos hnode, ← Ring.window_add]
    · have hother : (w'.posted.filter fun p => p.nodeId = n) = [] := by
        rw [List.filter_eq_nil_iff]
        intro p hp
        rw [hlogs.reports.nodeId p hp, hnode]
        simpa using hn
      rw [hother, if_neg (by rw [hnode]; exact hn)]
      simp

end SendWorld

end Ibdxnet.Msgrc
