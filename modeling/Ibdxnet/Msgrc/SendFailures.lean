import Ibdxnet.Msgrc.SendAccounting

/-!
# Failed completions

What the loop over the polled completions does with a batch that holds failed
ones, in any run of the send dispatcher.  After the first disconnect the
counters only bound the work requests on the send queues (`Covers`):

    outstanding to n     <= m_sendQueuePending[n] <= m_ibSQSize
    m_completionsPending  = sum of m_sendQueuePending[n]
    free + outstanding   <= size of the context pool

That is enough for every push of a context to find room, so that how the loop
ends is decided by the statuses, `m_firstWc` and the countdown
`m_ignoreFlushErrOnPendingCompletions`: `Passes` says which batches are
processed to the end, `run_completeAll_disconnected` which end in a disconnect.
-/

namespace Ibdxnet.Msgrc

open Ibdxnet.Con Sys

/-- The counters bound the outstanding work requests; `free` are the contexts in the pool. -/
structure Covers (cfg : SendConfig) (d : SendDispatcher) (outstanding : List PostedWr)
    (free : List Nat) : Prop where
  holds : d.workRequestCtxPool.Holds free
  poolSize : d.workRequestCtxPool.poolSize = cfg.ibSharedSCQSize.toNat
  length : free.length + outstanding.length ≤ cfg.ibSharedSCQSize.toNat
  nodup : (free ++ outstanding.map fun p => p.wr.wrId).Nodup
  target : ∀ p ∈ outstanding, (d.ctxs p.wr.wrId).targetNodeId = p.nodeId
  completionsPending : d.completionsPending = ∑ n, d.sendQueuePending n
  sendQueuePending : ∀ n, outstanding.countP (fun p => p.nodeId = n) ≤ d.sendQueuePending n
  room : ∀ n, d.sendQueuePending n ≤ cfg.ibSQSize.toNat

namespace Covers

variable {cfg : SendConfig} {d : SendDispatcher} {outstanding : List PostedWr} {free : List Nat}

theorem init (cfg : SendConfig) :
    Covers cfg (.init cfg) [] (List.range cfg.ibSharedSCQSize.toNat) where
  holds := SendWorkRequestCtxPool.init_holds _
  poolSize := rfl
  length := by simp
  nodup := by simpa using List.nodup_range
  target p hp := by cases hp
  completionsPending := by simp [SendDispatcher.init]
  sendQueuePending _ := Nat.le_refl _
  room _ := Nat.zero_le _

theorem sum_le {f : NodeId → Nat} (h : ∀ n, f n ≤ cfg.ibSQSize.toNat) :
    ∑ n, f n ≤ 2 ^ 16 * cfg.ibSQSize.toNat := by
  have hsum : ∑ n, f n ≤ ∑ _n : NodeId, cfg.ibSQSize.toNat := Finset.sum_le_sum fun n _ => h n
  have hcard : Fintype.card NodeId = 2 ^ 16 :=
    FinEnum.card_eq_fintypeCard.symm.trans FinEnum.card_UInt16
  rwa [Finset.sum_const, Finset.card_univ, Nat.nsmul_eq_mul, hcard] at hsum

/-- The sum over all nodes fits the `uint32_t` counter. -/
theorem sum_lt {f : NodeId → Nat} (h : ∀ n, f n ≤ cfg.ibSQSize.toNat) : ∑ n, f n < 2 ^ 32 := by
  have hsum := sum_le h
  have hsq := cfg.ibSQSize.toNat_lt
  omega

theorem completionsPending_le (h : Covers cfg d outstanding free) :
    d.completionsPending ≤ 2 ^ 16 * cfg.ibSQSize.toNat :=
  h.completionsPending ▸ sum_le h.room

theorem completionsPending_lt (h : Covers cfg d outstanding free) : d.completionsPending < 2 ^ 32 :=
  h.completionsPending ▸ sum_lt h.room

theorem length_le_completionsPending (h : Covers cfg d outstanding free) :
    outstanding.length ≤ d.completionsPending := by
  rw [h.completionsPending, ← PostedWr.sum_countP outstanding]
  exact Finset.sum_le_sum fun n _ => h.sendQueuePending n

/-- The order of the outstanding work requests does not matter. -/
theorem perm {outstanding' : List PostedWr} (h : Covers cfg d outstanding free)
    (hp : outstanding.Perm outstanding') : Covers cfg d outstanding' free :=
  { h with
    length := by rw [← hp.length_eq]; exact h.length
    nodup := ((List.Perm.refl free).append (hp.map _)).nodup_iff.mp h.nodup
    target := fun p hp' => h.target p (hp.mem_iff.mpr hp')
    sendQueuePending := fun n => by rw [← hp.countP_eq]; exact h.sendQueuePending n }

/-- A completion that is lost leaves the counters too high, which is no harm here. -/
theorem sublist {outstanding' : List PostedWr} (h : Covers cfg d outstanding free)
    (hs : outstanding'.Sublist outstanding) : Covers cfg d outstanding' free :=
  { h with
    length := by
      have h1 := h.length
      have h2 := hs.length_le
      omega
    nodup := h.nodup.sublist ((List.Sublist.refl free).append (hs.map _))
    target := fun p hp => h.target p (hs.subset hp)
    sendQueuePending := fun n => (hs.countP_le).trans (h.sendQueuePending n) }

/-- Only the pool, the contexts and the two counters matter. -/
theorem congr {d' : SendDispatcher} (h : Covers cfg d outstanding free)
    (hpool : d'.workRequestCtxPool = d.workRequestCtxPool) (hctxs : d'.ctxs = d.ctxs)
    (hcompletions : d'.completionsPending = d.completionsPending)
    (hqueue : d'.sendQueuePending = d.sendQueuePending) : Covers cfg d' outstanding free where
  holds := by rw [hpool]; exact h.holds
  poolSize := by rw [hpool]; exact h.poolSize
  length := h.length
  nodup := h.nodup
  target := by rw [hctxs]; exact h.target
  completionsPending := by rw [hcompletions, hqueue]; exact h.completionsPending
  sendQueuePending := by rw [hqueue]; exact h.sendQueuePending
  room := by rw [hqueue]; exact h.room

/-! ## Posting -/

theorem post {w : SendWorld} {connection : Connection} {workPackage : NextWorkPackage}
    {ids rest : List Nat} {p : SendWorkRequestCtxPool} {sendWrs : Nat → IbvSendWr}
    {posted : List IbvSendWr} (h : Covers cfg w.dispatcher w.outstanding (ids ++ rest))
    (hlen : ids.length = (packageRequests cfg w.dispatcher connection workPackage).length)
    (hnode : connection.remoteNodeId = workPackage.nodeId) (hp : p.Holds rest)
    (hsize : p.poolSize = w.dispatcher.workRequestCtxPool.poolSize)
    (hposted : posted.map IbvSendWr.unlinked = List.zipWith
      (fun ctx r => r.toWr connection.sourceNodeId ctx) ids
      (packageRequests cfg w.dispatcher connection workPackage)) :
    let w' := { w with
      dispatcher := w.dispatcher.prepare cfg connection workPackage ids p }.post connection sendWrs
        posted
    Covers cfg w'.dispatcher w'.outstanding rest := by
  have hids := SendWorld.map_wrId_posted hlen hposted
  have hposlen : posted.length = ids.length := by rw [← hids, List.length_map]
  have hroom : ids.length ≤
      cfg.ibSQSize.toNat - w.dispatcher.sendQueuePending workPackage.nodeId := by
    rw [hlen]
    exact length_requests_le _ _ _
  have hl := h.length
  have hsq := cfg.ibSQSize.toNat_lt
  rw [List.length_append] at hl
  -- what is posted fits the queue of its node, so that no counter wraps
  have hqueue : (w.dispatcher.addPending connection.remoteNodeId posted.length).sendQueuePending =
      Function.update w.dispatcher.sendQueuePending connection.remoteNodeId
        (w.dispatcher.sendQueuePending connection.remoteNodeId + posted.length) := by
    have hr := h.room connection.remoteNodeId
    rw [← hnode] at hroom
    have hmod : (w.dispatcher.sendQueuePending connection.remoteNodeId + posted.length) % 2 ^ 16 =
        w.dispatcher.sendQueuePending connection.remoteNodeId + posted.length :=
      Nat.mod_eq_of_lt (by omega)
    simp only [SendDispatcher.addPending, hmod]
  have hrooms : ∀ n, (w.dispatcher.addPending connection.remoteNodeId
      posted.length).sendQueuePending n ≤ cfg.ibSQSize.toNat := by
    intro n
    have hr := h.room n
    rw [hqueue, Function.update_apply]
    split
    · next hn =>
      subst hn
      rw [← hnode] at hroom
      omega
    · exact hr
  have hsum : ∑ n, (w.dispatcher.addPending connection.remoteNodeId
      posted.length).sendQueuePending n = w.dispatcher.completionsPending + posted.length := by
    have hupdate := Sums.sum_update id w.dispatcher.sendQueuePending connection.remoteNodeId
      (w.dispatcher.sendQueuePending connection.remoteNodeId + posted.length)
    simp only [id] at hupdate
    rw [hqueue, h.completionsPending]
    omega
  refine ⟨hp, hsize.trans h.poolSize, ?_, nodup_post _ hids h.nodup,
    fun q hq => target_post p h.nodup h.target hlen hnode hids hq, ?_, ?_, hrooms⟩
  · simp only [SendWorld.post, List.length_append, List.length_map]
    omega
  · have hlt := sum_lt hrooms
    rw [hsum] at hlt
    exact (Nat.mod_eq_of_lt hlt).trans hsum.symm
  · intro n
    have hq := h.sendQueuePending n
    change (w.outstanding ++ posted.map (PostedWr.mk connection.remoteNodeId)).countP _ ≤
      (w.dispatcher.addPending connection.remoteNodeId posted.length).sendQueuePending n
    rw [PostedWr.countP_post, hqueue, Function.update_apply]
    split
    · next hn =>
      subst hn
      omega
    · omega

/-! ## One completion -/

/-- A push of a context that is out finds room. -/
theorem run_pushCtx {p : PostedWr} {d₁ : SendDispatcher} (h : Covers cfg d (p :: outstanding) free)
    (hpool : d₁.workRequestCtxPool = d.workRequestCtxPool) :
    ∃ q, (SendDispatcher.pushCtx p.wr.wrId).run d₁ = .ok () { d₁ with workRequestCtxPool := q } ∧
      q.Holds (free ++ [p.wr.wrId]) ∧ q.poolSize = cfg.ibSharedSCQSize.toNat := by
  have hl := h.length
  rw [List.length_cons] at hl
  obtain ⟨q, hpush, hq, hsize⟩ := h.holds.run_push (by rw [h.poolSize]; omega) p.wr.wrId
  refine ⟨q, ?_, hq, hsize.trans h.poolSize⟩
  rw [SendDispatcher.pushCtx, Exec.run_zoom, hpool, hpush]

/-- The context of `p` is back in the pool. -/
theorem pushed {p : PostedWr} {d' : SendDispatcher} (h : Covers cfg d (p :: outstanding) free)
    (hpool : d'.workRequestCtxPool.Holds (free ++ [p.wr.wrId]))
    (hsize : d'.workRequestCtxPool.poolSize = cfg.ibSharedSCQSize.toNat)
    (hctxs : d'.ctxs = d.ctxs)
    (hcompletions : d'.completionsPending = ∑ n, d'.sendQueuePending n)
    (hqueue : ∀ n, outstanding.countP (fun p => p.nodeId = n) ≤ d'.sendQueuePending n)
    (hroom : ∀ n, d'.sendQueuePending n ≤ cfg.ibSQSize.toNat) :
    Covers cfg d' outstanding (free ++ [p.wr.wrId]) where
  holds := hpool
  poolSize := hsize
  length := by
    have hl := h.length
    rw [List.length_cons] at hl
    rw [List.length_append, List.length_singleton]
    omega
  nodup := by
    have hnodup := h.nodup
    rw [List.map_cons, List.append_cons] at hnodup
    exact hnodup
  target := by
    rw [hctxs]
    exact fun r hr => h.target r (List.mem_cons_of_mem p hr)
  completionsPending := hcompletions
  sendQueuePending := hqueue
  room := hroom

/-- Both counters go down by one. -/
theorem counted {p : PostedWr} {ctx : SendWorkRequestCtx}
    (h : Covers cfg d (p :: outstanding) free) (hctx : ctx.targetNodeId = p.nodeId) :
    (d.decPending ctx).completionsPending + 1 = d.completionsPending ∧
      (d.decPending ctx).completionsPending = ∑ n, (d.decPending ctx).sendQueuePending n ∧
      ∀ n, outstanding.countP (fun p => p.nodeId = n) ≤ (d.decPending ctx).sendQueuePending n ∧
        (d.decPending ctx).sendQueuePending n ≤ cfg.ibSQSize.toNat := by
  have hp := h.sendQueuePending p.nodeId
  have hr := h.room p.nodeId
  have hsq := cfg.ibSQSize.toNat_lt
  rw [List.countP_cons_of_pos (by simp)] at hp
  obtain ⟨k, hk⟩ : ∃ k, d.sendQueuePending p.nodeId = k + 1 :=
    ⟨_, (Nat.sub_add_cancel (by omega)).symm⟩
  have hqueue : (d.decPending ctx).sendQueuePending =
      Function.update d.sendQueuePending p.nodeId k := by
    rw [SendDispatcher.decPending, hctx, hk, Accounts.dec16_succ (by omega)]
  have hd : d.completionsPending = (∑ n, Function.update d.sendQueuePending p.nodeId k n) + 1 := by
    have hsum := Sums.sum_update id d.sendQueuePending p.nodeId k
    simp only [id] at hsum
    rw [h.completionsPending]
    omega
  have hdec : (d.decPending ctx).completionsPending =
      ∑ n, Function.update d.sendQueuePending p.nodeId k n := by
    have hlt := h.completionsPending_lt
    change dec32 d.completionsPending = _
    rw [hd, Accounts.dec32_succ (by omega)]
  refine ⟨by rw [hdec, hd], by rw [hdec, hqueue], fun n => ?_⟩
  · have hn := h.sendQueuePending n
    have hrn := h.room n
    rw [hqueue, Function.update_apply]
    split
    · next heq =>
      subst heq
      omega
    · next hne =>
      rw [List.countP_cons_of_neg (by simpa using Ne.symm hne)] at hn
      exact ⟨hn, hrn⟩

end Covers

/-- The loop goes on past a completion with this status. -/
def GoesOn (ignoreFlushErr : Nat) (status : IbvWcStatus) : Prop :=
  status = .success ∨ status = .wrFlushErr ∧ ignoreFlushErr ≠ 0

namespace Covers

variable {cfg : SendConfig} {d d' : SendDispatcher} {outstanding : List PostedWr} {free : List Nat}
  {p : PostedWr} {status : IbvWcStatus}

theorem run_completeStatus (h : Covers cfg d (p :: outstanding) free)
    (hgoesOn : GoesOn d.ignoreFlushErrOnPendingCompletions status) :
    ∃ d₁, (SendDispatcher.completeStatus ⟨p.wr.wrId, status⟩).run d = .ok () d₁ ∧
      d₁.workRequestCtxPool = d.workRequestCtxPool ∧ d₁.ctxs = d.ctxs ∧
      d₁.completionsPending + 1 = d.completionsPending ∧
      d₁.completionsPending = ∑ n, d₁.sendQueuePending n ∧
      (∀ n, outstanding.countP (fun p => p.nodeId = n) ≤ d₁.sendQueuePending n ∧
        d₁.sendQueuePending n ≤ cfg.ibSQSize.toNat) ∧
      d₁.firstWc = (d.firstWc && status != .success) ∧
      d₁.ignoreFlushErrOnPendingCompletions = d.ignoreFlushErrOnPendingCompletions := by
  have htarget := h.target p List.mem_cons_self
  simp only [SendDispatcher.completeStatus, EStateM.run_bind, EStateM.run_get]
  rcases hgoesOn with rfl | ⟨rfl, hignore⟩
  · have h₀ : Covers cfg { d with
        firstWc := false
        completionList := d.completionList.add (d.ctxs p.wr.wrId) } (p :: outstanding) free :=
      h.congr rfl rfl rfl rfl
    obtain ⟨hpending, hcompletions, hqueue⟩ := h₀.counted htarget
    exact ⟨_, rfl, by simp, by simp, hpending, hcompletions, hqueue, by simp, by simp⟩
  · obtain ⟨hpending, hcompletions, hqueue⟩ := h.counted htarget
    simp only [if_pos hignore]
    exact ⟨_, rfl, by simp, by simp, hpending, hcompletions, hqueue, by simp, by simp⟩

/-- A completion the loop goes on past is counted down, ignored flush errors
being no different from successful ones. -/
theorem run_complete (h : Covers cfg d (p :: outstanding) free)
    (hgoesOn : GoesOn d.ignoreFlushErrOnPendingCompletions status) :
    ∃ d', (SendDispatcher.complete ⟨p.wr.wrId, status⟩).run d = .ok () d' ∧
      Covers cfg d' outstanding (free ++ [p.wr.wrId]) ∧
      d'.firstWc = (d.firstWc && status != .success) ∧
      d'.completionsPending + 1 = d.completionsPending ∧
      d'.ignoreFlushErrOnPendingCompletions = d.ignoreFlushErrOnPendingCompletions - 1 := by
  obtain ⟨d₁, hrun, hpool, hctxs, hpending, hcompletions, hqueue, hfirst, hignore⟩ :=
    h.run_completeStatus hgoesOn
  obtain ⟨q, hpush, hq, hsize⟩ := h.run_pushCtx hpool
  refine ⟨{ d₁ with
    workRequestCtxPool := q
    ignoreFlushErrOnPendingCompletions := d₁.ignoreFlushErrOnPendingCompletions - 1 },
    ?_, ?_, hfirst, hpending, by rw [hignore]⟩
  · simp only [SendDispatcher.complete, EStateM.run_bind, hrun, Exec.run_tryCatch, hpush,
      EStateM.run_modify]
  · exact h.pushed hq hsize hctxs hcompletions (fun n => (hqueue n).1) fun n => (hqueue n).2

/-- A disconnect: the context is pushed, the counters keep counting the work request. -/
theorem run_complete_disconnected (h : Covers cfg d (p :: outstanding) free)
    (hfirst : d.firstWc = false) :
    ∃ d', (SendDispatcher.complete ⟨p.wr.wrId, .retryExcErr⟩).run d =
        .error (.disconnected p.nodeId) d' ∧
      Covers cfg d' outstanding (free ++ [p.wr.wrId]) ∧
      d'.completionsPending = d.completionsPending ∧
      d'.ignoreFlushErrOnPendingCompletions = d.ignoreFlushErrOnPendingCompletions := by
  obtain ⟨q, hpush, hq, hsize⟩ := h.run_pushCtx (Eq.refl d.workRequestCtxPool)
  refine ⟨{ d with workRequestCtxPool := q }, ?_, ?_, rfl, rfl⟩
  · simp only [SendDispatcher.complete, SendDispatcher.completeStatus, EStateM.run_bind,
      EStateM.run_get, hfirst, Bool.false_eq_true, if_false, hpush, Exec.run_throw,
      h.target p List.mem_cons_self]
  · refine h.pushed hq hsize rfl h.completionsPending (fun n => ?_) h.room
    exact ((List.sublist_cons_self p outstanding).countP_le).trans (h.sendQueuePending n)

/-- Every other completion makes the dispatcher throw an `IbException`. -/
theorem run_complete_failed
    (hstops : ¬ GoesOn d.ignoreFlushErrOnPendingCompletions status)
    (hfirst : status = .retryExcErr → d.firstWc = true) (wrId : Nat) :
    ∃ reason d', (SendDispatcher.complete ⟨wrId, status⟩).run d =
      .error (.ibException reason) d' := by
  simp only [SendDispatcher.complete, SendDispatcher.completeStatus, EStateM.run_bind,
    EStateM.run_get]
  cases status with
  | success => exact absurd (Or.inl rfl) hstops
  | wrFlushErr =>
    have hzero : ¬ d.ignoreFlushErrOnPendingCompletions ≠ 0 := fun hne =>
      hstops (Or.inr ⟨rfl, hne⟩)
    simp only [if_neg hzero, Exec.run_throw]
    exact ⟨_, _, rfl⟩
  | other => exact ⟨_, _, rfl⟩
  | retryExcErr =>
    simp only [hfirst rfl, if_true, Exec.run_throw]
    exact ⟨_, _, rfl⟩

/-- The loop goes on past a completion of an outstanding work request exactly if its
status allows. -/
theorem run_complete_ok_iff (h : Covers cfg d (p :: outstanding) free) :
    (∃ d', (SendDispatcher.complete ⟨p.wr.wrId, status⟩).run d = .ok () d') ↔
      GoesOn d.ignoreFlushErrOnPendingCompletions status := by
  constructor
  · rintro ⟨d', hrun⟩
    by_contra hstops
    by_cases hdisconnect : status = .retryExcErr ∧ d.firstWc = false
    · obtain ⟨rfl, hfirst⟩ := hdisconnect
      obtain ⟨d₁, herror, -⟩ := h.run_complete_disconnected hfirst
      rw [hrun] at herror
      cases herror
    · obtain ⟨reason, d₁, herror⟩ := run_complete_failed hstops
        (fun hretry => by simpa [hretry] using hdisconnect) p.wr.wrId
      rw [hrun] at herror
      cases herror
  · intro hgoesOn
    obtain ⟨d', hrun, -⟩ := h.run_complete hgoesOn
    exact ⟨d', hrun⟩

theorem run_complete_disconnected_iff (h : Covers cfg d (p :: outstanding) free)
    {nodeId : NodeId} :
    (∃ d', (SendDispatcher.complete ⟨p.wr.wrId, status⟩).run d =
        .error (.disconnected nodeId) d') ↔
      status = .retryExcErr ∧ d.firstWc = false ∧ p.nodeId = nodeId := by
  constructor
  · rintro ⟨d', hrun⟩
    have hretry : status = .retryExcErr := complete_disconnected hrun
    subst hretry
    cases hfirst : d.firstWc with
    | true =>
      have hstops : ¬ GoesOn d.ignoreFlushErrOnPendingCompletions .retryExcErr := by simp [GoesOn]
      obtain ⟨reason, d₁, herror⟩ := run_complete_failed hstops (fun _ => hfirst) p.wr.wrId
      rw [hrun] at herror
      cases herror
    | false =>
      obtain ⟨d₁, herror, -⟩ := h.run_complete_disconnected hfirst
      rw [hrun] at herror
      cases herror
      exact ⟨rfl, rfl, rfl⟩
  · rintro ⟨rfl, hfirst, rfl⟩
    obtain ⟨d', hrun, -⟩ := h.run_complete_disconnected hfirst
    exact ⟨d', hrun⟩

end Covers

/-! ## A batch of completions -/

/-- The loop reaches the completion at position `k` of the batch: it goes on past every
one in front, the countdown being one less at each of them. -/
def Reaches (ignoreFlushErr : Nat) (polled : List (PostedWr × IbvWcStatus)) (k : Nat) : Prop :=
  ∀ j c, j < k → polled[j]? = some c → GoesOn (ignoreFlushErr - j) c.2

/-- The work requests whose completions a call processes that returns: those in front of the
first completion with `IBV_WC_RETRY_EXC_ERR`, where the loop ends in a disconnect. -/
def processed (polled : List (PostedWr × IbvWcStatus)) : List PostedWr :=
  (polled.takeWhile fun c => c.2 != .retryExcErr).map Prod.fst

theorem processed_eq_take {ignoreFlushErr : Nat} {polled : List (PostedWr × IbvWcStatus)}
    {k : Nat} (hreaches : Reaches ignoreFlushErr polled k)
    (hend : k = polled.length ∨ ∃ p, polled[k]? = some (p, .retryExcErr)) :
    processed polled = (polled.take k).map Prod.fst := by
  have hfront : ∀ c ∈ polled.take k, (c.2 != IbvWcStatus.retryExcErr) = true := by
    intro c hc
    obtain ⟨j, hj, rfl⟩ := List.getElem_of_mem hc
    rw [List.length_take] at hj
    rcases hreaches j (polled.take k)[j] (by omega) (by rw [List.getElem_take,
      List.getElem?_eq_getElem]) with h | ⟨h, -⟩
    · rw [h]
      rfl
    · rw [h]
      rfl
  have hback : (polled.drop k).takeWhile (fun c => c.2 != .retryExcErr) = [] := by
    rcases hend with rfl | ⟨p, hk⟩
    · rw [List.drop_length, List.takeWhile_nil]
    · obtain ⟨hlt, hget⟩ := List.getElem?_eq_some_iff.mp hk
      rw [List.drop_eq_getElem_cons hlt, hget]
      rfl
  have hsplit : (polled.take k ++ polled.drop k).takeWhile (fun c => c.2 != .retryExcErr) =
      polled.take k ++ (polled.drop k).takeWhile fun c => c.2 != .retryExcErr :=
    List.takeWhile_append_of_pos hfront
  rw [List.take_append_drop, hback, List.append_nil] at hsplit
  rw [processed, hsplit]

/-- The completions of the batch, as `ibv_poll_cq` gives them. -/
def workComps (polled : List (PostedWr × IbvWcStatus)) : List IbvWc :=
  polled.map fun c => ⟨c.1.wr.wrId, c.2⟩

namespace SendDispatcher

variable {d d' : SendDispatcher} {wcs wcs' : List IbvWc}

theorem run_completeAll_append : (completeAll (wcs ++ wcs')).run d =
    match (completeAll wcs).run d with
    | .ok _ d' => (completeAll wcs').run d'
    | .error e d' => .error e d' := by
  induction wcs generalizing d with
  | nil => rfl
  | cons wc wcs ih =>
    simp only [List.cons_append, completeAll, EStateM.run_bind]
    cases (complete wc).run d with
    | ok _ d₁ => simp only [ih]
    | error e d₁ => rfl

/-- The loop throws what the round throws that it does not get past. -/
theorem completeAll_eq_error {e : Exception} :
    (completeAll wcs).run d = .error e d' ↔ ∃ k wc d₁, wcs[k]? = some wc ∧
      (completeAll (wcs.take k)).run d = .ok () d₁ ∧ (complete wc).run d₁ = .error e d' := by
  constructor
  · intro hrun
    induction wcs generalizing d with
    | nil => cases hrun
    | cons wc wcs ih =>
      rcases Exec.run_bind_eq_error.mp hrun with hrun | ⟨_, d₁, hwc, hrun⟩
      · exact ⟨0, wc, d, rfl, rfl, hrun⟩
      · obtain ⟨k, wc', d₂, hk, hok, herror⟩ := ih hrun
        exact ⟨k + 1, wc', d₂, hk, Exec.run_bind_eq_ok.mpr ⟨_, d₁, hwc, hok⟩, herror⟩
  · rintro ⟨k, wc, d₁, hk, hok, herror⟩
    obtain ⟨hlt, rfl⟩ := List.getElem?_eq_some_iff.mp hk
    rw [← List.take_append_drop k wcs, run_completeAll_append, hok,
      List.drop_eq_getElem_cons hlt]
    exact Exec.run_bind_eq_error.mpr (Or.inl herror)

end SendDispatcher

namespace Covers

variable {cfg : SendConfig} {d d' : SendDispatcher} {outstanding : List PostedWr} {free : List Nat}
  {polled : List (PostedWr × IbvWcStatus)} {k : Nat}

/-- The first `k` completions, if the loop goes on past all of them. -/
theorem run_completeAll_take (h : Covers cfg d (polled.map Prod.fst ++ outstanding) free)
    (hk : k ≤ polled.length) (hreaches : Reaches d.ignoreFlushErrOnPendingCompletions polled k) :
    ∃ d' free', (SendDispatcher.completeAll ((workComps polled).take k)).run d = .ok () d' ∧
      Covers cfg d' ((polled.drop k).map Prod.fst ++ outstanding) free' ∧
      d'.firstWc = (d.firstWc && (polled.take k).all fun c => c.2 != .success) ∧
      d'.completionsPending + k = d.completionsPending ∧
      d'.ignoreFlushErrOnPendingCompletions = d.ignoreFlushErrOnPendingCompletions - k := by
  induction k generalizing d polled free with
  | zero => exact ⟨d, free, rfl, h, (Bool.and_true _).symm, rfl, rfl⟩
  | succ k ih =>
    cases polled with
    | nil => cases hk
    | cons c polled =>
      obtain ⟨d₁, hc, h₁, hfirst, hpending, hignore⟩ := h.run_complete (hreaches 0 c (by omega) rfl)
      have hreaches₁ : Reaches d₁.ignoreFlushErrOnPendingCompletions polled k := by
        intro j c' hj hc'
        have hj' := hreaches (j + 1) c' (by omega) hc'
        rwa [hignore, Nat.sub_sub, Nat.add_comm 1]
      obtain ⟨d', free', hrun, h', hfirst', hpending', hignore'⟩ :=
        ih h₁ (Nat.le_of_succ_le_succ hk) hreaches₁
      refine ⟨d', free', Exec.run_bind_eq_ok.mpr ⟨_, d₁, hc, hrun⟩, h', ?_, by omega, ?_⟩
      · rw [hfirst', hfirst, List.take_succ_cons, List.all_cons, Bool.and_assoc]
      · rw [hignore', hignore]
        omega

/-- The loop gets past the first `k` completions exactly if it reaches the one behind them. -/
theorem run_completeAll_take_ok_iff (h : Covers cfg d (polled.map Prod.fst ++ outstanding) free)
    (hk : k ≤ polled.length) :
    (∃ d', (SendDispatcher.completeAll ((workComps polled).take k)).run d = .ok () d') ↔
      Reaches d.ignoreFlushErrOnPendingCompletions polled k := by
  constructor
  · rintro ⟨d', hrun⟩
    induction k generalizing d polled free with
    | zero => exact fun j c hj => absurd hj (Nat.not_lt_zero j)
    | succ k ih =>
      cases polled with
      | nil => cases hk
      | cons c polled =>
        obtain ⟨_, d₁, hc, hrun⟩ := Exec.run_bind_eq_ok.mp hrun
        have hgoesOn := h.run_complete_ok_iff.mp ⟨d₁, hc⟩
        obtain ⟨d₂, hc₂, h₂, -, -, hignore⟩ := h.run_complete hgoesOn
        obtain rfl := (EStateM.Result.ok.inj (hc₂.symm.trans hc)).2
        have hreaches := ih h₂ (Nat.le_of_succ_le_succ hk) hrun
        intro j c' hj hc'
        cases j with
        | zero =>
          obtain rfl := Option.some.inj hc'
          exact hgoesOn
        | succ j =>
          have hj' := hreaches j c' (by omega) hc'
          rwa [hignore, Nat.sub_sub, Nat.add_comm 1] at hj'
  · intro hreaches
    obtain ⟨d', free', hrun, -⟩ := h.run_completeAll_take hk hreaches
    exact ⟨d', hrun⟩

end Covers

/-- The loop over the batch ends in a disconnect of the node: it reaches a completion with
`IBV_WC_RETRY_EXC_ERR` of a work request to it, and some completion before was successful. -/
def Disconnects (firstWc : Bool) (ignoreFlushErr : Nat) (polled : List (PostedWr × IbvWcStatus))
    (nodeId : NodeId) : Prop :=
  ∃ k p, polled[k]? = some (p, .retryExcErr) ∧ p.nodeId = nodeId ∧
    Reaches ignoreFlushErr polled k ∧
    (firstWc = true → ∃ c ∈ polled.take k, c.2 = .success)

namespace Covers

variable {cfg : SendConfig} {d d' : SendDispatcher} {outstanding : List PostedWr} {free : List Nat}
  {polled : List (PostedWr × IbvWcStatus)} {nodeId : NodeId} {k : Nat} {p : PostedWr}
  {status : IbvWcStatus}

theorem firstWc_eq_false_iff {firstWc : Bool} :
    (firstWc && polled.all fun c => c.2 != .success) = false ↔
      (firstWc = true → ∃ c ∈ polled, c.2 = .success) := by
  cases firstWc with
  | false => simp
  | true => simp [List.all_eq_false]

/-- A completion the loop reaches: `p` is still counted, the countdown is `k` lower. -/
theorem run_completeAll_reached (h : Covers cfg d (polled.map Prod.fst ++ outstanding) free)
    (hk : polled[k]? = some (p, status))
    (hreaches : Reaches d.ignoreFlushErrOnPendingCompletions polled k) :
    ∃ d₁ free₁, (SendDispatcher.completeAll ((workComps polled).take k)).run d = .ok () d₁ ∧
      Covers cfg d₁ (p :: ((polled.drop (k + 1)).map Prod.fst ++ outstanding)) free₁ ∧
      d₁.firstWc = (d.firstWc && (polled.take k).all fun c => c.2 != .success) ∧
      d₁.completionsPending + k = d.completionsPending ∧
      d₁.ignoreFlushErrOnPendingCompletions = d.ignoreFlushErrOnPendingCompletions - k := by
  obtain ⟨hlt, hget⟩ := List.getElem?_eq_some_iff.mp hk
  obtain ⟨d₁, free₁, hrun, h₁, hrest⟩ := h.run_completeAll_take hlt.le hreaches
  rw [List.drop_eq_getElem_cons hlt, hget] at h₁
  exact ⟨d₁, free₁, hrun, h₁, hrest⟩

/-- What the rounds before leave, if there is a round for position `k` at all. -/
theorem reaches_of_run {wc : IbvWc} {d₁ : SendDispatcher}
    (h : Covers cfg d (polled.map Prod.fst ++ outstanding) free)
    (hk : (workComps polled)[k]? = some wc)
    (hok : (SendDispatcher.completeAll ((workComps polled).take k)).run d = .ok () d₁) :
    ∃ p status, polled[k]? = some (p, status) ∧ wc = ⟨p.wr.wrId, status⟩ ∧
      Reaches d.ignoreFlushErrOnPendingCompletions polled k := by
  rw [workComps, List.getElem?_map, Option.map_eq_some_iff] at hk
  obtain ⟨⟨p, status⟩, hk, rfl⟩ := hk
  obtain ⟨hlt, -⟩ := List.getElem?_eq_some_iff.mp hk
  exact ⟨p, status, hk, rfl, (h.run_completeAll_take_ok_iff hlt.le).mp ⟨d₁, hok⟩⟩

theorem getElem?_workComps (hk : polled[k]? = some (p, status)) :
    (workComps polled)[k]? = some ⟨p.wr.wrId, status⟩ := by
  rw [workComps, List.getElem?_map, hk]
  rfl

theorem run_completeAll_disconnected_iff
    (h : Covers cfg d (polled.map Prod.fst ++ outstanding) free) :
    (∃ d', (SendDispatcher.completeAll (workComps polled)).run d =
        .error (.disconnected nodeId) d') ↔
      Disconnects d.firstWc d.ignoreFlushErrOnPendingCompletions polled nodeId := by
  constructor
  · rintro ⟨d', hrun⟩
    obtain ⟨k, wc, d₁, hwc, hok, herror⟩ := SendDispatcher.completeAll_eq_error.mp hrun
    obtain ⟨p, status, hk, rfl, hreaches⟩ := h.reaches_of_run hwc hok
    obtain ⟨d₂, free₂, hok₂, h₂, hfirst, -⟩ := h.run_completeAll_reached hk hreaches
    obtain rfl := (EStateM.Result.ok.inj (hok₂.symm.trans hok)).2
    obtain ⟨rfl, hfirst₂, hnode⟩ := h₂.run_complete_disconnected_iff.mp ⟨d', herror⟩
    exact ⟨k, p, hk, hnode, hreaches, firstWc_eq_false_iff.mp (hfirst ▸ hfirst₂)⟩
  · rintro ⟨k, p, hk, rfl, hreaches, hfirst⟩
    obtain ⟨d₁, free₁, hok, h₁, hfirst₁, -⟩ := h.run_completeAll_reached hk hreaches
    obtain ⟨d', herror⟩ := h₁.run_complete_disconnected_iff.mpr
      ⟨rfl, hfirst₁.trans (firstWc_eq_false_iff.mpr hfirst), rfl⟩
    exact ⟨d', SendDispatcher.completeAll_eq_error.mpr
      ⟨k, _, d₁, getElem?_workComps hk, hok, herror⟩⟩

/-- However the loop ends without an `IbException`, the counters still cover what is
left, and the count of pending completions and the countdown have lost one for each
completion processed. -/
theorem completeAll (h : Covers cfg d (polled.map Prod.fst ++ outstanding) free)
    (hrun : (SendDispatcher.completeAll (workComps polled)).run d = .ok () d' ∨ ∃ nodeId,
      (SendDispatcher.completeAll (workComps polled)).run d = .error (.disconnected nodeId) d') :
    (∃ free', Covers cfg d' outstanding free') ∧
      d'.completionsPending + (processed polled).length = d.completionsPending ∧
      d'.ignoreFlushErrOnPendingCompletions =
        d.ignoreFlushErrOnPendingCompletions - (processed polled).length := by
  have hall : (workComps polled).take polled.length = workComps polled := by
    rw [List.take_of_length_le (by simp [workComps])]
  rcases hrun with hrun | ⟨nodeId, hrun⟩
  · have hreaches := (h.run_completeAll_take_ok_iff (Nat.le_refl _)).mp
      ⟨d', by rw [hall]; exact hrun⟩
    obtain ⟨d₁, free₁, hok, h₁, -, hpending, hignore⟩ :=
      h.run_completeAll_take (Nat.le_refl _) hreaches
    rw [hall] at hok
    obtain rfl := (EStateM.Result.ok.inj (hok.symm.trans hrun)).2
    rw [List.drop_length] at h₁
    rw [processed_eq_take hreaches (Or.inl rfl), List.take_length, List.length_map]
    exact ⟨⟨free₁, h₁⟩, hpending, hignore⟩
  · obtain ⟨k, wc, d₁, hwc, hok, herror⟩ := SendDispatcher.completeAll_eq_error.mp hrun
    obtain ⟨p, status, hk, rfl, hreaches⟩ := h.reaches_of_run hwc hok
    obtain ⟨d₂, free₂, hok₂, h₂, -, hpending, hignore⟩ := h.run_completeAll_reached hk hreaches
    obtain rfl := (EStateM.Result.ok.inj (hok₂.symm.trans hok)).2
    obtain ⟨rfl, hfirst₂, -⟩ := h₂.run_complete_disconnected_iff.mp ⟨d', herror⟩
    obtain ⟨d₃, herror₃, h₃, hpending₃, hignore₃⟩ := h₂.run_complete_disconnected hfirst₂
    obtain rfl := (EStateM.Result.error.inj (herror₃.symm.trans herror)).2
    obtain ⟨hlt, -⟩ := List.getElem?_eq_some_iff.mp hk
    rw [processed_eq_take hreaches (Or.inr ⟨p, hk⟩), List.length_map, List.length_take,
      Nat.min_eq_left hlt.le, hpending₃, hignore₃]
    exact ⟨⟨_, h₃.sublist (List.sublist_append_right _ _)⟩, hpending, hignore⟩

end Covers

namespace SendWorld

/-! ## Runs -/

def Covered (cfg : SendConfig) (w : SendWorld) : Prop :=
  ∃ free, Covers cfg w.dispatcher w.outstanding free

section
variable {cfg : SendConfig} {env : DispatchEnv} {workPackage : NextWorkPackage} {w w' : SendWorld}

theorem Covered.begin (h : w.Covered cfg) : w.beginDispatch.Covered cfg := by
  obtain ⟨free, h⟩ := h
  exact ⟨free, h.congr rfl rfl rfl rfl⟩

theorem Covered.sends (h : w.Covered cfg) (hs : Sends cfg env workPackage w w') :
    w'.Covered cfg := by
  obtain ⟨free, h⟩ := h
  cases hs with
  | idle => exact ⟨free, h⟩
  | sent hne hc hconnection hrun =>
    obtain ⟨ids, rest, p, rfl, hlen, hp, hsize,
      ⟨rfl, rfl⟩ | ⟨-, -, sendWrs, posted, hposted, rfl⟩⟩ :=
      run_sendData_ok (w := w.connect _) h.holds hrun
    · have hpool : Covers cfg { w.dispatcher with workRequestCtxPool := p } w.outstanding rest :=
        { h with holds := hp, poolSize := hsize.trans h.poolSize }
      exact ⟨rest, hpool.congr rfl rfl rfl rfl⟩
    · exact ⟨rest, Covers.post (w := w.connect _) h hlen (by rw [hconnection]) hp hsize hposted⟩

/-- The delivered completions are those of work requests the counters cover. -/
theorem Covered.covers_polled (h : w.Covered cfg) (env : DispatchEnv) :
    ∃ free, Covers cfg w.dispatcher
      ((w.polled cfg env).1.map Prod.fst ++ (w.polled cfg env).2) free := by
  obtain ⟨free, h⟩ := h
  exact ⟨free, h.perm (pollOutstanding_perm _ _)⟩

theorem Covered.polls (h : w.Covered cfg) (hp : Polls cfg env w w') : w'.Covered cfg := by
  cases hp with
  | nothing => exact h
  | all hd =>
    obtain ⟨free, h⟩ := h.covers_polled env
    exact (h.completeAll (Or.inl hd)).1

theorem Covered.disconnect (h : w.Covered cfg) (nodeId : NodeId) :
    (w.disconnect nodeId).Covered cfg := by
  obtain ⟨free, h⟩ := h
  exact ⟨free, h.congr rfl rfl rfl rfl⟩

theorem Covered.step (h : w.Covered cfg) (hs : step cfg w env = some w') : w'.Covered cfg := by
  obtain ⟨workPackage, -, ⟨w₁, hsends, hpolls | ⟨nodeId, d, hd, rfl⟩⟩ |
    ⟨-, ⟨-, hpolls⟩ | ⟨nodeId, -, rfl⟩⟩⟩ := step_cases hs
  · exact (h.begin.sends hsends).polls hpolls
  · obtain ⟨free, h₁⟩ := (h.begin.sends hsends).covers_polled env
    have hcovered : (w₁.afterPoll cfg env d).Covered cfg := (h₁.completeAll (Or.inr ⟨nodeId, hd⟩)).1
    exact hcovered.disconnect nodeId
  · exact h.begin.polls hpolls
  · exact h.begin.disconnect nodeId

end

end SendWorld

end Ibdxnet.Msgrc
