import Ibdxnet.Msgrc.RecvDelivery

/-!
# The receive side over any buffer pool

The runs of the receive dispatcher in which the buffer pool is left open: before
every step it is put into any state at all, so that `GetBuffers` supplies any
number of buffers.  Neither the capacities (`capacities_kept`) nor the order of
delivery (`delivered_in_order`) depend on it:

    m_recvQueuePending = posted ≤ Q,  m_usedEntries ≤ Q * G
    consumed ++ live entries = entries of the completions, in polling order

The only exceptions are those of the buffer pool, of the completion queue, and
the one for a completion without data and without flow control data
(`External`): none of the ring buffer, the work request pool or the receive queue.
-/

namespace Ibdxnet.Msgrc

open Ibdxnet.Con Sys Dx

/-! ## Exceptions -/

/-- The exceptions of the buffer pool and of what arrives. -/
def External : Exception → Prop
  | .illegalState reason => reason ∈ [
      "Got invalid (null) buffer from pool, pos %d",
      "Overwriting existing buffer %p at pos %d with %p",
      "Pool overflow, this should not happen: backRes %d, front %d, count %d",
      "Zero length data received but no flow control data"]
  | .ibException reason => reason = "Polling completion queue failed"
  | _ => False

theorem takeSlots_throws (A : Arith) (front i k : Nat) :
    Exec.Throws External (RecvBufferPool.takeSlots A front i k) := by
  induction k generalizing i with
  | zero => exact Exec.Throws.pure _
  | succ k ih =>
    refine Exec.Throws.get.bind fun p => ?_
    dsimp only
    split
    · exact Exec.Throws.throw (by simp [External])
    · exact (Exec.Throws.set _).bind fun _ => (ih _).bind fun _ => Exec.Throws.pure _

theorem getBuffers_throws (A : Arith) (count : Nat) :
    Exec.Throws External (RecvBufferPool.getBuffers A count) := by
  refine Exec.Throws.ite (Exec.Throws.pure _) (Exec.Throws.get.bind fun p => ?_)
  refine Exec.Throws.ite (Exec.Throws.pure _) ?_
  exact (takeSlots_throws _ _ _ _).bind fun _ =>
    (Exec.Throws.modify _).bind fun _ => Exec.Throws.pure _

theorem fillSlots_throws (A : Arith) (backRes i : Nat) (buffers : List IbMemReg) :
    Exec.Throws External (RecvBufferPool.fillSlots A backRes i buffers) := by
  induction buffers generalizing i with
  | nil => exact Exec.Throws.pure _
  | cons b buffers ih =>
    refine Exec.Throws.get.bind fun p => Exec.Throws.ite ?_ ?_
    · exact Exec.Throws.throw (by simp [External])
    · exact (Exec.Throws.set _).bind fun _ => ih _

theorem returnBuffers_throws (A : Arith) (buffers : List IbMemReg) :
    Exec.Throws External (RecvBufferPool.returnBuffers A buffers) := by
  refine Exec.Throws.ite (Exec.Throws.pure _) (Exec.Throws.get.bind fun p => ?_)
  refine Exec.Throws.ite (Exec.Throws.throw (by simp [External])) ?_
  exact (Exec.Throws.set _).bind fun _ =>
    (fillSlots_throws _ _ _ _).bind fun _ => Exec.Throws.modify _

/-! ## Runs -/

/-- The receive side, and the polled completions with the buffers of their work
requests, in polling order. -/
structure SuppliedWorld where
  world : RecvWorld
  polled : List (IbvRecvWc × List IbMemReg)

/-- The world with the buffer pool in this state. -/
def RecvWorld.supply (w : RecvWorld) (p : RecvBufferPool) : RecvWorld :=
  { w with dispatcher := { w.dispatcher with recvBufferPool := p } }

/-- The completions a step polls, with the buffers of their work requests. -/
def RecvWorld.polledIn (w : RecvWorld) : RecvAction → List (IbvRecvWc × List IbMemReg)
  | .poll (some arrivals) => arrivals.map fun a => (a.toWc, w.sgl a.wrId)
  | _ => []

namespace SuppliedWorld

def init (cfg : RecvConfig) : SuppliedWorld := ⟨.init cfg, []⟩

/-- A step from a state of the buffer pool that is chosen for it. -/
def step (cfg : RecvConfig) (s : SuppliedWorld) (a : RecvBufferPool × RecvAction) :
    Option SuppliedWorld :=
  ((s.world.supply a.1).step cfg a.2).map fun w => ⟨w, s.polled ++ s.world.polledIn a.2⟩

/-- Completions are successful, as are the posts of work requests, and the handler
processes what is there. -/
def Successful (s : SuppliedWorld) : RecvBufferPool × RecvAction → Prop
  | (_, .poll (some arrivals)) => ∀ a ∈ arrivals, a.status = .success
  | (_, .refillPost failsAt) => failsAt = none
  | (_, .dispatchReceived processed) => processed ≤ s.world.dispatcher.ringBuffer.usedEntries
  | _ => True

/-- The entries of a polled completion. -/
def entries (cfg : RecvConfig) (c : IbvRecvWc × List IbMemReg) : List Entry :=
  completionEntries cfg c.1 c.2

/-- As long as nothing is thrown: the queues are in order, and the entries of the
processed completions are consumed or live. -/
structure Traced (cfg : RecvConfig) (s : SuppliedWorld) (es : List Entry) (wrs : List Nat) :
    Prop where
  thrown : s.world.thrown = none
  queues : s.world.Queues cfg es wrs
  full : ∀ c ∈ s.polled, c.2.length = cfg.maxSGEs
  log : ∃ done,
    s.polled = done ++ s.world.unprocessed.map (fun wc => (wc, s.world.sgl wc.wrId)) ∧
    s.world.delivered.map Prod.fst ++ es = done.flatMap (entries cfg)

/-- What is left once something is thrown. -/
structure Ended (cfg : RecvConfig) (s : SuppliedWorld) : Prop where
  thrown : ∃ e, s.world.thrown = some e ∧ External e
  pending : s.world.dispatcher.recvQueuePending = s.world.posted.length
  posted_le : s.world.posted.length ≤ cfg.ibSRQSize
  usedEntries_le : s.world.dispatcher.ringBuffer.usedEntries ≤ cfg.ibSRQSize * cfg.maxSGEs
  full : ∀ c ∈ s.polled, c.2.length = cfg.maxSGEs
  delivered : s.world.delivered.map Prod.fst <+: s.polled.flatMap (entries cfg)

theorem init_traced (cfg : RecvConfig) :
    Traced cfg (init cfg) [] (List.range (cfg.ibSRQSize * 2)) where
  thrown := rfl
  queues := RecvWorld.init_queues cfg
  full _ hc := absurd hc List.not_mem_nil
  log := ⟨[], rfl, rfl⟩

section
variable {cfg : RecvConfig} {w w' : RecvWorld} {polled : List (IbvRecvWc × List IbMemReg)}
  {es : List Entry} {wrs : List Nat}

theorem Traced.delivered (h : Traced cfg ⟨w, polled⟩ es wrs) :
    w.delivered.map Prod.fst <+: polled.flatMap (entries cfg) := by
  obtain ⟨done, hsplit, hdone⟩ := h.log
  simp only at hsplit hdone
  rw [hsplit, List.flatMap_append, ← hdone, List.append_assoc]
  exact List.prefix_append _ _

/-- A step that leaves the completions and the consumed entries alone. -/
theorem Traced.congr {wrs' : List Nat} (h : Traced cfg ⟨w, polled⟩ es wrs)
    (hqueues : w'.Queues cfg es wrs')
    (hthrown : w'.thrown = w.thrown) (hunprocessed : w'.unprocessed = w.unprocessed)
    (hsgl : ∀ wc ∈ w.unprocessed, w'.sgl wc.wrId = w.sgl wc.wrId)
    (hdelivered : w'.delivered = w.delivered) : Traced cfg ⟨w', polled⟩ es wrs' where
  thrown := hthrown.trans h.thrown
  queues := hqueues
  full := h.full
  log := by
    obtain ⟨done, hsplit, hdone⟩ := h.log
    refine ⟨done, ?_, by rw [hdelivered]; exact hdone⟩
    simp only at hsplit ⊢
    rw [hsplit, hunprocessed]
    congr 1
    apply List.map_congr_left
    intro wc hwc
    rw [hsgl wc hwc]

/-- An exception ends the run, with the queues as they were. -/
theorem Traced.ended {e : Exception} {d : RecvDispatcher} (h : Traced cfg ⟨w, polled⟩ es wrs)
    (he : External e) (hpending : d.recvQueuePending = w.dispatcher.recvQueuePending)
    (hused : d.ringBuffer.usedEntries ≤ cfg.ibSRQSize * cfg.maxSGEs) :
    Ended cfg ⟨{ w with dispatcher := d, thrown := some e }, polled⟩ where
  thrown := ⟨e, rfl, he⟩
  pending := hpending.trans h.queues.pending
  posted_le := h.queues.posted_le
  usedEntries_le := hused
  full := h.full
  delivered := h.delivered

theorem Traced.supply (h : Traced cfg ⟨w, polled⟩ es wrs) (p : RecvBufferPool) :
    Traced cfg ⟨w.supply p, polled⟩ es wrs :=
  h.congr (h.queues.congr (h.queues.fits.of_eq rfl rfl) rfl rfl rfl rfl h.queues.refilling) rfl rfl
    (fun _ _ => rfl) rfl

/-! ## Steps -/

theorem Traced.step_poll {ret : Option (List Arrival)} (h : Traced cfg ⟨w, polled⟩ es wrs)
    (ha : ∀ arrivals, ret = some arrivals → ∀ a ∈ arrivals, a.status = .success)
    (hs : w.step cfg (.poll ret) = some w') :
    Traced cfg ⟨w', polled ++ w.polledIn (.poll ret)⟩ es wrs ∨
      Ended cfg ⟨w', polled ++ w.polledIn (.poll ret)⟩ := by
  have hthrown : w.thrown = none := h.thrown
  unfold RecvWorld.step at hs
  rw [if_neg (by simp [hthrown])] at hs
  cases ret with
  | none =>
    cases hpc : w.pc <;> simp only [hpc, reduceCtorEq] at hs
    obtain ⟨hlimit, hs⟩ : w.dispatcher.pollLimit cfg > 0 ∧
        some (w.call (RecvDispatcher.poll cfg none) fun _ w => w) = some w' := by
      by_cases hlimit : w.dispatcher.pollLimit cfg > 0
      · exact ⟨hlimit, by simpa [hlimit] using hs⟩
      · simp [hlimit] at hs
    have hfree : w.dispatcher.ringBuffer.numFreeEntries / cfg.maxSGEs > 0 := by
      rw [RecvDispatcher.pollLimit] at hlimit
      omega
    have hrun : (RecvDispatcher.poll cfg none).run w.dispatcher =
        .error (.ibException "Polling completion queue failed") w.dispatcher := by
      simp only [RecvDispatcher.poll, EStateM.run_bind, EStateM.run_get, if_pos hfree,
        Exec.run_throw]
    rw [RecvWorld.call_error hrun, Option.some.injEq] at hs
    subst hs
    rw [show w.polledIn (.poll none) = [] from rfl, List.append_nil]
    exact Or.inr (h.ended rfl rfl h.queues.usedEntries_le)
  | some arrivals =>
    cases hpc : w.pc <;> simp only [hpc, reduceCtorEq] at hs
    obtain ⟨hlen, hposted⟩ : arrivals.length ≤ w.dispatcher.pollLimit cfg ∧
        (arrivals.map Arrival.wrId).Subperm w.posted := by
      by_contra hguard
      rw [if_neg hguard] at hs
      cases hs
    rw [if_pos ⟨hlen, hposted⟩, Option.some.injEq] at hs
    have hlen' : (arrivals.map Arrival.toWc).length ≤ w.dispatcher.pollLimit cfg := by
      rw [List.length_map]
      exact hlen
    obtain ⟨b, hrun⟩ := RecvDispatcher.run_poll hlen'
    have hdispatcher : (arrivals.foldl (RecvWorld.arrive cfg) w).dispatcher = w.dispatcher := by
      rw [RecvWorld.foldl_arrive_eq]
    rw [← hdispatcher] at hrun
    rw [RecvWorld.call_ok hrun, hdispatcher, List.length_map] at hs
    subst hs
    have hqueues := h.queues.step_poll hpc hlen hposted (ha arrivals rfl)
    rw [RecvWorld.foldl_arrive_eq] at hqueues ⊢
    refine Or.inl ⟨hthrown, hqueues, fun c hc => ?_, ?_⟩
    · rcases List.mem_append.mp hc with hc | hc
      · exact h.full c hc
      · obtain ⟨a, haa, rfl⟩ := List.mem_map.mp hc
        exact h.queues.prepared a.wrId (hposted.subset (List.mem_map_of_mem haa))
    · obtain ⟨done, hsplit, hdone⟩ := h.log
      have hnone : w.unprocessed = [] := by rw [RecvWorld.unprocessed, hpc]
      simp only [hnone, List.map_nil, List.append_nil] at hsplit
      refine ⟨done, ?_, hdone⟩
      simp only [hsplit, RecvWorld.unprocessed, List.map_map]
      rfl

theorem Traced.step_refill (h : Traced cfg ⟨w, polled⟩ es wrs)
    (hs : w.step cfg .refill = some w') :
    Traced cfg ⟨w', polled⟩ es wrs ∨ Ended cfg ⟨w', polled⟩ := by
  have hthrown : w.thrown = none := h.thrown
  unfold RecvWorld.step at hs
  rw [if_neg (by simp [hthrown])] at hs
  cases hpc : w.pc <;> simp only [hpc, reduceCtorEq, Option.some.injEq] at hs
  have hunprocessed : w.unprocessed = w.dispatcher.workComps := by rw [RecvWorld.unprocessed, hpc]
  by_cases hpending : w.dispatcher.recvQueuePending < cfg.ibSRQSize
  · have hrun : (RecvDispatcher.refillGetBuffers cfg).run w.dispatcher = _ :=
      RecvDispatcher.run_refillGetBuffers
    rw [if_pos hpending] at hrun
    cases hget : (RecvBufferPool.getBuffers cfg.arith
        ((cfg.ibSRQSize - w.dispatcher.recvQueuePending) * cfg.maxSGEs)).run
        w.dispatcher.recvBufferPool with
    | ok refsMemReg p =>
      rw [hget] at hrun
      rw [RecvWorld.call_ok hrun] at hs
      subst hs
      have hpendingEq : w.dispatcher.recvQueuePending = w.posted.length := h.queues.pending
      refine Or.inl (h.congr (h.queues.congr (h.queues.fits.of_eq rfl rfl) rfl rfl rfl ?_ ?_) rfl ?_
        (fun _ _ => rfl) rfl)
      · exact hunprocessed.symm
      · intro n bufs hn
        simp only [RecvPc.refillPost.injEq] at hn
        change n + w.posted.length = _
        omega
      · exact hunprocessed.symm
    | error e p =>
      rw [hget] at hrun
      rw [RecvWorld.call_error hrun] at hs
      subst hs
      exact Or.inr (h.ended (getBuffers_throws _ _ _ _ _ hget) rfl h.queues.usedEntries_le)
  · have hrun : (RecvDispatcher.refillGetBuffers cfg).run w.dispatcher = .ok none w.dispatcher :=
      RecvDispatcher.run_refillGetBuffers.trans (if_neg hpending)
    rw [RecvWorld.call_ok hrun] at hs
    subst hs
    exact Or.inl (h.congr (h.queues.congr (h.queues.fits.of_eq rfl rfl) rfl rfl rfl
      hunprocessed.symm (fun _ _ hn => by cases hn)) rfl hunprocessed.symm (fun _ _ => rfl) rfl)

theorem Traced.step_refillPost (h : Traced cfg ⟨w, polled⟩ es wrs)
    (hs : w.step cfg (.refillPost none) = some w') :
    (∃ wrs', Traced cfg ⟨w', polled⟩ es wrs') ∨ Ended cfg ⟨w', polled⟩ := by
  have hthrown : w.thrown = none := h.thrown
  unfold RecvWorld.step at hs
  rw [if_neg (by simp [hthrown])] at hs
  cases hpc : w.pc <;> simp only [hpc, reduceCtorEq, Option.some.injEq] at hs
  next n bufs =>
  have hn : n + w.posted.length = cfg.ibSRQSize := h.queues.refilling n bufs hpc
  have hobjects := h.queues.length_objects
  have hunprocessed := h.queues.unprocessed_le
  simp only at hobjects hunprocessed
  obtain ⟨k, q, f, hk, -, herror, hok, hfits, hother, hmax, hprep, -, hlist⟩ :=
    h.queues.fits.run_refillPrepare h.queues.nodup h.queues.maxSges
      (show n ≤ wrs.length by omega) bufs
  cases hreturn : (RecvBufferPool.returnBuffers cfg.arith (bufs.drop (k * cfg.maxSGEs))).run
      w.dispatcher.recvBufferPool with
  | error e p =>
    obtain ⟨f', hrun⟩ := herror e p hreturn
    rw [RecvWorld.call_error hrun] at hs
    subst hs
    exact Or.inr (h.ended (returnBuffers_throws _ _ _ _ _ hreturn) rfl h.queues.usedEntries_le)
  | ok u p =>
    have hrun := hok p hreturn
    have hposted : w.posted.length + (wrs.take k).length ≤ cfg.ibSRQSize := by
      rw [List.length_take]
      omega
    have hpost := RecvWorld.post_eq (w := { w with dispatcher := { w.dispatcher with
      recvBufferPool := p, recvWRPool := q, workRequests := f } }) hposted
      fun id ids hids => (hlist p id ids hids).trans hids.symm
    simp only at hrun
    rw [RecvWorld.call_ok hrun, hpost] at hs
    subst hs
    have hqueues := h.queues.step_post (p := p) hpc hk hother hmax
      (fun id hid => (hprep id hid).2) hfits
    refine Or.inl ⟨_, h.congr hqueues rfl ?_ (fun wc hwc => ?_) rfl⟩
    · rw [RecvWorld.unprocessed, RecvWorld.unprocessed, hpc]
      rfl
    · exact congrArg (fun wr => wr.sgls.refsMemReg) ((h.queues.workRequests_eq hother).2 wc hwc)

theorem Traced.step_process (h : Traced cfg ⟨w, polled⟩ es wrs)
    (hs : w.step cfg .process = some w') :
    (∃ es' wrs', Traced cfg ⟨w', polled⟩ es' wrs') ∨ Ended cfg ⟨w', polled⟩ := by
  have hthrown : w.thrown = none := h.thrown
  unfold RecvWorld.step at hs
  rw [if_neg (by simp [hthrown])] at hs
  cases hpc : w.pc <;> simp only [hpc, reduceCtorEq] at hs
  next i =>
  cases hwc : w.dispatcher.workComps[i]? with
  | none =>
    simp only [hwc, Option.some.injEq] at hs
    subst hs
    have hnil : w.unprocessed = [] := by
      rw [RecvWorld.unprocessed, hpc]
      exact List.drop_eq_nil_of_le (List.getElem?_eq_none_iff.mp hwc)
    exact Or.inl ⟨es, wrs, h.congr (h.queues.congr h.queues.fits rfl rfl rfl hnil.symm
      (fun _ _ hn => by cases hn)) rfl hnil.symm (fun _ _ => rfl) rfl⟩
  | some wc =>
    simp only [hwc, Option.some.injEq] at hs
    have hunprocessed := RecvWorld.unprocessed_process hpc hwc
    have hmem : wc ∈ w.unprocessed := by
      rw [hunprocessed]
      exact List.mem_cons_self
    obtain ⟨hstatus, hfull⟩ := h.queues.completions wc hmem
    have hcapacity := h.queues.capacity
    have hobjects := h.queues.length_objects
    simp only [hunprocessed, List.length_cons, Nat.succ_mul] at hcapacity hobjects
    have hring : es.length + max 1 (w.dispatcher.workRequests wc.wrId).sgls.refsMemReg.length ≤
        cfg.ibSRQSize * cfg.maxSGEs := by
      rw [show (w.dispatcher.workRequests wc.wrId).sgls.refsMemReg.length = cfg.maxSGEs from hfull]
      omega
    have hwrs : wrs.length < cfg.ibSRQSize * 2 := by omega
    cases hreturn : (RecvBufferPool.returnBuffers cfg.arith (unusedBuffers cfg wc
        (w.dispatcher.workRequests wc.wrId).sgls.refsMemReg)).run w.dispatcher.recvBufferPool with
    | error e p =>
      obtain ⟨r, hrun, hused⟩ := h.queues.fits.run_processCompletion_error hstatus hring hreturn
      simp only at hrun
      rw [RecvWorld.call_error hrun] at hs
      subst hs
      exact Or.inr (h.ended (returnBuffers_throws _ _ _ _ _ hreturn) rfl hused)
    | ok u p =>
      by_cases hempty : wc.byteLen = 0 ∧ wc.immData.flowControlData = 0
      · obtain ⟨q, hrun⟩ := h.queues.fits.run_processCompletion_empty hstatus hwrs hempty.1 hempty.2
          hreturn
        simp only at hrun
        rw [RecvWorld.call_error hrun] at hs
        subst hs
        exact Or.inr (h.ended (by simp [External]) rfl h.queues.usedEntries_le)
      · obtain ⟨r, q, hrun, hfits⟩ := h.queues.fits.run_processCompletion hstatus hring hwrs
          (fun hzero hfc => hempty ⟨hzero, hfc⟩) hreturn
        simp only at hrun
        rw [RecvWorld.call_ok hrun] at hs
        subst hs
        refine Or.inl ⟨_, _, h.thrown, h.queues.step_process hpc hwc hfits, h.full, ?_⟩
        obtain ⟨done, hsplit, hdone⟩ := h.log
        simp only [hunprocessed, List.map_cons] at hsplit
        refine ⟨done ++ [(wc, w.sgl wc.wrId)], ?_, ?_⟩
        · simp only [hsplit, List.append_assoc]
          rfl
        · rw [List.flatMap_append, ← hdone, List.append_assoc, List.flatMap_singleton]
          rfl

theorem Traced.step_dispatchReceived {processed : Nat} (h : Traced cfg ⟨w, polled⟩ es wrs)
    (ha : processed ≤ w.dispatcher.ringBuffer.usedEntries)
    (hs : w.step cfg (.dispatchReceived processed) = some w') :
    ∃ es', Traced cfg ⟨w', polled⟩ es' wrs := by
  have hthrown : w.thrown = none := h.thrown
  unfold RecvWorld.step at hs
  rw [if_neg (by simp [hthrown])] at hs
  cases hpc : w.pc <;> simp only [hpc, reduceCtorEq, Option.some.injEq] at hs
  have hnone : w.unprocessed = [] := by rw [RecvWorld.unprocessed, hpc]
  have hring := h.queues.fits.ring
  simp only at hring
  have hle : processed ≤ es.length := hring.usedEntries_eq ▸ ha
  rcases h.queues.fits.run_dispatchReceived (fun _ => hle) with ⟨-, hrun⟩ | ⟨r, -, hrun, hfits⟩
  · simp only at hrun
    rw [RecvWorld.call_ok hrun] at hs
    subst hs
    exact ⟨es, h.congr (h.queues.congr h.queues.fits rfl rfl rfl hnone.symm
      (fun _ _ hn => by cases hn)) rfl hnone.symm (fun _ _ => rfl) rfl⟩
  · simp only at hrun
    simp only [RecvWorld.call_ok hrun, if_true, hring.read_eq hle] at hs
    subst hs
    refine ⟨es.drop processed, h.thrown, h.queues.step_give hpc hfits, h.full, ?_⟩
    obtain ⟨done, hsplit, hdone⟩ := h.log
    simp only [hnone] at hsplit
    refine ⟨done, hsplit, ?_⟩
    rw [← hdone]
    simp [RecvWorld.give, RecvWorld.withBytes, Function.comp_def]

theorem Traced.step_returnBuffers {buffers : List IbMemReg} (h : Traced cfg ⟨w, polled⟩ es wrs)
    (hs : w.step cfg (.returnBuffers buffers) = some w') :
    Traced cfg ⟨w', polled⟩ es wrs ∨ Ended cfg ⟨w', polled⟩ := by
  have hthrown : w.thrown = none := h.thrown
  unfold RecvWorld.step at hs
  rw [if_neg (by simp [hthrown])] at hs
  have hguard : buffers.Subperm w.handler := by
    by_contra hguard
    cases hpc : w.pc <;> simp only [hpc, if_neg hguard, reduceCtorEq] at hs
  have hw : some (w.call
      (RecvDispatcher.onBufferPool (RecvBufferPool.returnBuffers cfg.arith buffers))
        fun _ w => { w with handler := w.handler.diff buffers }) = some w' := by
    cases hpc : w.pc <;> simp only [hpc, if_pos hguard] at hs <;> exact hs
  rw [Option.some.injEq] at hw
  subst hw
  cases hreturn : (RecvBufferPool.returnBuffers cfg.arith buffers).run
      w.dispatcher.recvBufferPool with
  | ok u p =>
    have hrun : (RecvDispatcher.onBufferPool
        (RecvBufferPool.returnBuffers cfg.arith buffers)).run w.dispatcher =
          .ok u { w.dispatcher with recvBufferPool := p } := by
      rw [RecvDispatcher.onBufferPool, Exec.run_zoom, hreturn]
    rw [RecvWorld.call_ok hrun]
    exact Or.inl (h.congr (h.queues.congr (h.queues.fits.of_eq rfl rfl) rfl rfl rfl rfl
      h.queues.refilling) rfl rfl (fun _ _ => rfl) rfl)
  | error e p =>
    have hrun : (RecvDispatcher.onBufferPool
        (RecvBufferPool.returnBuffers cfg.arith buffers)).run w.dispatcher =
          .error e { w.dispatcher with recvBufferPool := p } := by
      rw [RecvDispatcher.onBufferPool, Exec.run_zoom, hreturn]
    rw [RecvWorld.call_error hrun]
    exact Or.inr (h.ended (returnBuffers_throws _ _ _ _ _ hreturn) rfl h.queues.usedEntries_le)

end

/-! ## Every run -/

/-- Nothing is thrown, or the run has ended with an exception from outside. -/
def Kept (cfg : RecvConfig) (s : SuppliedWorld) : Prop :=
  (∃ es wrs, Traced cfg s es wrs) ∨ Ended cfg s

section
variable {cfg : RecvConfig} {s s' : SuppliedWorld} {a : RecvBufferPool × RecvAction}

theorem Kept.step (h : Kept cfg s) (ha : Successful s a) (hs : step cfg s a = some s') :
    Kept cfg s' := by
  obtain ⟨w, polled⟩ := s
  obtain ⟨p, a⟩ := a
  obtain ⟨w', hw, rfl⟩ := Option.map_eq_some_iff.mp hs
  rcases h with ⟨es, wrs, h⟩ | h
  · have hsupply := h.supply p
    cases a with
    | poll ret =>
      have hsuccess : ∀ arrivals, ret = some arrivals → ∀ a ∈ arrivals, a.status = .success := by
        rintro arrivals rfl
        exact ha
      exact (hsupply.step_poll hsuccess hw).imp (fun h' => ⟨es, wrs, h'⟩) id
    | refill =>
      rw [← List.append_nil polled] at hsupply
      exact (hsupply.step_refill hw).imp (fun h' => ⟨es, wrs, h'⟩) id
    | refillPost failsAt =>
      obtain rfl : failsAt = none := ha
      rw [← List.append_nil polled] at hsupply
      exact (hsupply.step_refillPost hw).imp (fun ⟨wrs', h'⟩ => ⟨es, wrs', h'⟩) id
    | process =>
      rw [← List.append_nil polled] at hsupply
      exact hsupply.step_process hw
    | dispatchReceived processed =>
      rw [← List.append_nil polled] at hsupply
      obtain ⟨es', h'⟩ := hsupply.step_dispatchReceived ha hw
      exact Or.inl ⟨es', wrs, h'⟩
    | returnBuffers buffers =>
      rw [← List.append_nil polled] at hsupply
      exact (hsupply.step_returnBuffers hw).imp (fun h' => ⟨es, wrs, h'⟩) id
  · obtain ⟨e, he, -⟩ := h.thrown
    have hsome : (w.supply p).thrown.isSome := by
      change w.thrown.isSome
      simp only at he
      rw [he]
      rfl
    unfold RecvWorld.step at hw
    rw [if_pos hsome] at hw
    cases hw

theorem kept_of_exec {as : List (RecvBufferPool × RecvAction)}
    (hrun : Lts.exec (step cfg) (init cfg) as = some s)
    (ha : Lts.Along (step cfg) Successful (init cfg) as) : Kept cfg s :=
  Lts.exec_invariant_along (fun _ _ _ h ha hs => h.step ha hs)
    (Or.inl ⟨_, _, init_traced cfg⟩) ha hrun

theorem Kept.pending (h : Kept cfg s) :
    s.world.dispatcher.recvQueuePending = s.world.posted.length := by
  rcases h with ⟨es, wrs, h⟩ | h
  · exact h.queues.pending
  · exact h.pending

end

/-- In every run of successful completions, whatever the buffer pool does:
`m_recvQueuePending` counts the posted work requests and never falls below zero, the
ring buffer stays within its size, and no exception but an external one is thrown. -/
theorem capacities_kept (cfg : RecvConfig) (as : List (RecvBufferPool × RecvAction))
    {s : SuppliedWorld} (hrun : Lts.exec (step cfg) (init cfg) as = some s)
    (ha : Lts.Along (step cfg) Successful (init cfg) as) :
    s.world.dispatcher.recvQueuePending = s.world.posted.length ∧
      s.world.posted.length ≤ cfg.ibSRQSize ∧
      s.world.dispatcher.ringBuffer.usedEntries ≤ cfg.ibSRQSize * cfg.maxSGEs ∧
      (∀ e, s.world.thrown = some e → External e) ∧
      ∀ p arrivals s', step cfg s (p, .poll (some arrivals)) = some s' →
        arrivals.length ≤ s.world.dispatcher.recvQueuePending := by
  have hkept := kept_of_exec hrun ha
  have hpending := hkept.pending
  have hpoll : ∀ p arrivals s', step cfg s (p, .poll (some arrivals)) = some s' →
      arrivals.length ≤ s.world.dispatcher.recvQueuePending := by
    intro p arrivals s' hs
    obtain ⟨w', hw, -⟩ := Option.map_eq_some_iff.mp hs
    have hposted : (arrivals.map Arrival.wrId).Subperm s.world.posted := by
      unfold RecvWorld.step at hw
      split at hw
      · cases hw
      · cases hpc : s.world.pc <;> simp only [RecvWorld.supply, hpc, reduceCtorEq] at hw
        split at hw
        · next hguard => exact hguard.2
        · cases hw
    have hle := hposted.length_le
    rw [List.length_map] at hle
    omega
  rcases hkept with ⟨es, wrs, h⟩ | h
  · refine ⟨hpending, h.queues.posted_le, h.queues.usedEntries_le, fun e he => ?_, hpoll⟩
    rw [h.thrown] at he
    cases he
  · refine ⟨hpending, h.posted_le, h.usedEntries_le, fun e he => ?_, hpoll⟩
    obtain ⟨e', he', hext⟩ := h.thrown
    rw [he, Option.some.injEq] at he'
    exact he' ▸ hext

/-- Two calls of `Dispatch`: one with a full buffer pool that fills the receive queue, one
with an empty pool that gets two messages; the handler takes one entry. -/
def suppliedMessages : List (RecvBufferPool × RecvAction) :=
  (RecvWorld.dispatchSteps [] 0).map (fun a => (.init 5, a)) ++
    (RecvWorld.dispatchSteps [⟨0, .success, ⟨[1, 2, 3, 4, 5], ⟨7, 9⟩⟩⟩,
      ⟨1, .success, ⟨[], ⟨7, 3⟩⟩⟩] 1).map (fun a => (⟨5, 0, 0, 0, fun _ => none⟩, a))

/-- The condition `Successful`, decided. -/
instance (s : SuppliedWorld) : ∀ a, Decidable (Successful s a)
  | (_, .poll (some arrivals)) =>
    inferInstanceAs (Decidable (∀ a ∈ arrivals, a.status = .success))
  | (_, .refillPost failsAt) => inferInstanceAs (Decidable (failsAt = none))
  | (_, .dispatchReceived _) => inferInstanceAs (Decidable (_ ≤ _))
  | (_, .poll none) | (_, .refill) | (_, .process) | (_, .returnBuffers _) =>
    inferInstanceAs (Decidable True)

theorem capacities_kept_messages : ∃ s,
    Lts.exec (step RecvWorld.smallRecvConfig) (init RecvWorld.smallRecvConfig) suppliedMessages =
      some s ∧
    s.world.dispatcher.recvQueuePending = s.world.posted.length ∧
    s.world.posted.length ≤ 2 ∧ s.world.dispatcher.ringBuffer.usedEntries ≤ 2 * 2 ∧
    (∀ e, s.world.thrown = some e → External e) ∧
    ∀ p arrivals s', step RecvWorld.smallRecvConfig s (p, .poll (some arrivals)) = some s' →
      arrivals.length ≤ s.world.dispatcher.recvQueuePending := by
  have hsome : (Lts.exec (step RecvWorld.smallRecvConfig) (init RecvWorld.smallRecvConfig)
      suppliedMessages).isSome := by decide +kernel
  obtain ⟨s, hs⟩ := Option.isSome_iff_exists.mp hsome
  exact ⟨s, hs, capacities_kept RecvWorld.smallRecvConfig _ hs (by decide +kernel)⟩

/-! ## Flow control data -/

/-- The flow control data of a completion is in one entry, if it is not zero. -/
theorem fcData_entries {cfg : RecvConfig} {c : IbvRecvWc × List IbMemReg} (hne : c.2 ≠ []) :
    ((entries cfg c).map Entry.fcData).filter (· ≠ 0) =
      [c.1.immData.flowControlData].filter (· ≠ 0) := by
  obtain ⟨wc, bs⟩ := c
  rw [entries, completionEntries]
  split
  · rfl
  · cases bs with
    | nil => exact absurd rfl hne
    | cons b bs =>
      have hrest : ∀ l : List Entry, (∀ e ∈ l, e.fcData = 0) →
          (l.map Entry.fcData).filter (· ≠ 0) = [] := by
        intro l hl
        rw [List.filter_eq_nil_iff]
        intro x hx
        obtain ⟨e, he, rfl⟩ := List.mem_map.mp hx
        simp [hl e he]
      rw [dataEntries, List.map_cons, List.filter_cons, List.filter_cons, List.filter_nil]
      rw [hrest _ (by
        split
        · intro e he
          cases he
        · exact dataEntries_fcData_zero cfg wc.immData.sourceNodeId _ bs)]
      rfl

/-- In every run of successful completions, whatever the buffer pool does: the
entries the handler has consumed are the first ones of those of the polled
completions, in polling order; between two calls of `Dispatch` the live entries are all
the others.  The flow control data of a completion is in one entry of it. -/
theorem delivered_in_order (cfg : RecvConfig) (hmax : 0 < cfg.maxSGEs)
    (as : List (RecvBufferPool × RecvAction)) {s : SuppliedWorld}
    (hrun : Lts.exec (step cfg) (init cfg) as = some s)
    (ha : Lts.Along (step cfg) Successful (init cfg) as) :
    s.world.delivered.map Prod.fst <+: s.polled.flatMap (entries cfg) ∧
      (s.world.thrown = none → s.world.pc = .poll →
        s.world.delivered.map Prod.fst ++
          s.world.dispatcher.ringBuffer.read s.world.dispatcher.ringBuffer.usedEntries =
            s.polled.flatMap (entries cfg)) ∧
      ∀ c ∈ s.polled, ((entries cfg c).map Entry.fcData).filter (· ≠ 0) =
        [c.1.immData.flowControlData].filter (· ≠ 0) := by
  have hfc : (∀ c ∈ s.polled, c.2.length = cfg.maxSGEs) →
      ∀ c ∈ s.polled, ((entries cfg c).map Entry.fcData).filter (· ≠ 0) =
        [c.1.immData.flowControlData].filter (· ≠ 0) := by
    intro hfull c hc
    refine fcData_entries fun hnil => ?_
    have hlen := hfull c hc
    rw [hnil, List.length_nil] at hlen
    omega
  rcases kept_of_exec hrun ha with ⟨es, wrs, h⟩ | h
  · refine ⟨h.delivered, fun _ hpc => ?_, hfc h.full⟩
    have hread := h.queues.fits.ring.read_eq (Nat.le_refl es.length)
    rw [List.take_length] at hread
    obtain ⟨done, hsplit, hdone⟩ := h.log
    rw [RecvWorld.unprocessed, hpc, List.map_nil, List.append_nil] at hsplit
    rw [h.queues.fits.ring.usedEntries_eq, hread, hdone, hsplit]
  · refine ⟨h.delivered, fun hnone => ?_, hfc h.full⟩
    obtain ⟨e, he, -⟩ := h.thrown
    rw [hnone] at he
    cases he

theorem delivered_in_order_messages : ∃ s,
    Lts.exec (step RecvWorld.smallRecvConfig) (init RecvWorld.smallRecvConfig) suppliedMessages =
      some s ∧
    s.world.delivered.map Prod.fst <+: s.polled.flatMap (entries RecvWorld.smallRecvConfig) ∧
    (s.world.thrown = none → s.world.pc = .poll →
      s.world.delivered.map Prod.fst ++
        s.world.dispatcher.ringBuffer.read s.world.dispatcher.ringBuffer.usedEntries =
          s.polled.flatMap (entries RecvWorld.smallRecvConfig)) ∧
    ∀ c ∈ s.polled, ((entries RecvWorld.smallRecvConfig c).map Entry.fcData).filter (· ≠ 0) =
      [c.1.immData.flowControlData].filter (· ≠ 0) := by
  have hsome : (Lts.exec (step RecvWorld.smallRecvConfig) (init RecvWorld.smallRecvConfig)
      suppliedMessages).isSome := by decide +kernel
  obtain ⟨s, hs⟩ := Option.isSome_iff_exists.mp hsome
  exact ⟨s, hs, delivered_in_order RecvWorld.smallRecvConfig (by decide) _ hs (by decide +kernel)⟩

end SuppliedWorld

end Ibdxnet.Msgrc
