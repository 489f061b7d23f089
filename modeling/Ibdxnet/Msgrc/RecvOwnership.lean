import Ibdxnet.Msgrc.RecvQueues

/-!
# Where the receive buffers are

Every buffer of the pool is at every point between two steps in exactly one
place (`RecvWorld.ownedOnce`):

    the buffer pool | a work request posted or polled and not yet processed |
      a live entry of the incoming ring buffer | the handler

with one more inside `__Refill`, between `GetBuffers` and the post: its array
of buffers.  A buffer that is in the pool holds no undelivered data.

`Moves` says once what a step can do to the lists the dispatcher holds; the
invariant `Custody` follows from it case by case.
-/

namespace Ibdxnet.Msgrc

open Ibdxnet.Con Sys Dx

namespace RecvWorld

/-! ## Places -/

/-- The buffers in the array of a running `__Refill`. -/
def taken (w : RecvWorld) : List IbMemReg :=
  match w.pc with
  | .refillPost _ refsMemReg => refsMemReg
  | _ => []

/-- All places of buffers one after the other, with `pool` in the buffer pool and
`es` in the ring buffer. -/
def places (w : RecvWorld) (pool : List IbMemReg) (es : List Entry) : List IbMemReg :=
  pool ++ w.taken ++ w.posted.flatMap w.sgl ++ (w.unprocessed.flatMap fun wc => w.sgl wc.wrId) ++
    es.filterMap Entry.data ++ w.handler

/-- The answers a step may get: successful completions that fit their work
request and are not empty altogether, posts that succeed, and handlers that process
what is there. -/
def Admissible (cfg : RecvConfig) (w : RecvWorld) : RecvAction → Prop
  | .poll none => False
  | .poll (some arrivals) => ∀ a ∈ arrivals, a.status = .success ∧
      a.message.bytes.length ≤ ((w.sgl a.wrId).map cfg.getSizeBuffer).sum ∧
      (a.message.bytes = [] → a.message.immData.flowControlData ≠ 0)
  | .refillPost failsAt => failsAt = none
  | .dispatchReceived processed => processed ≤ w.dispatcher.ringBuffer.usedEntries
  | _ => True

instance (cfg : RecvConfig) (w : RecvWorld) : ∀ a, Decidable (Admissible cfg w a)
  | .poll none => inferInstanceAs (Decidable False)
  | .poll (some arrivals) => inferInstanceAs (Decidable (∀ a ∈ arrivals, _ ∧ _ ∧ _))
  | .refillPost failsAt => inferInstanceAs (Decidable (failsAt = none))
  | .dispatchReceived _ => inferInstanceAs (Decidable (_ ≤ _))
  | .refill | .process | .returnBuffers _ => inferInstanceAs (Decidable True)

/-- Every buffer is in exactly one place, and those in the pool hold no undelivered data. -/
def OwnedOnce (cfg : RecvConfig) (w : RecvWorld) : Prop :=
  ∃ pool es, w.dispatcher.recvBufferPool.Holds pool ∧ w.dispatcher.ringBuffer.Holds es ∧
    (w.places pool es).Perm (List.range cfg.bufferPoolSize) ∧
    ∀ b ∈ pool, b ∉ w.undelivered

/-! ## Steps -/

/-- What a step can do to the world, and to the lists the dispatcher holds. -/
inductive Moves (cfg : RecvConfig) (w : RecvWorld) (pool : List IbMemReg) (es : List Entry)
    (wrs : List Nat) : RecvWorld → List IbMemReg → List Entry → List Nat → Prop
  | poll (arrivals : List Arrival) : w.pc = .poll →
      arrivals.length ≤ w.dispatcher.pollLimit cfg →
      (arrivals.map Arrival.wrId).Subperm w.posted →
      Admissible cfg w (.poll (some arrivals)) →
      Moves cfg w pool es wrs
        { arrivals.foldl (arrive cfg) w with
          pc := .refill
          dispatcher := { w.dispatcher with
            workComps := arrivals.map Arrival.toWc
            recvQueuePending := w.dispatcher.recvQueuePending - arrivals.length } }
        pool es wrs
  | queueFull : w.pc = .refill → Moves cfg w pool es wrs { w with pc := .process 0 } pool es wrs
  | getBuffers (k : Nat) (p : RecvBufferPool) : w.pc = .refill →
      w.dispatcher.recvQueuePending < cfg.ibSRQSize → k ≤ pool.length →
      Moves cfg w pool es wrs
        { w with
          pc := .refillPost (cfg.ibSRQSize - w.dispatcher.recvQueuePending) (pool.take k)
          dispatcher := { w.dispatcher with recvBufferPool := p } }
        (pool.drop k) es wrs
  | post (k n : Nat) (bufs : List IbMemReg) (p : RecvBufferPool) (q : RecvWorkRequestPool)
      (f : Nat → RecvWorkRequest) : w.pc = .refillPost n bufs → k ≤ n →
      k * cfg.maxSGEs ≤ bufs.length →
      (∀ id, id ∉ wrs.take k → f id = w.dispatcher.workRequests id) →
      (∀ id, (f id).sgls.maxSges = cfg.maxSGEs) →
      (∀ id ∈ wrs.take k, (f id).recvWr.sgList = (f id).sgls.refsMemReg ∧
        (f id).sgls.refsMemReg.length = cfg.maxSGEs) →
      ((wrs.take k).flatMap fun id => (f id).sgls.refsMemReg) = bufs.take (k * cfg.maxSGEs) →
      Moves cfg w pool es wrs
        { w with
          pc := .process 0
          posted := w.posted ++ wrs.take k
          dispatcher := { w.dispatcher with
            recvBufferPool := p
            recvWRPool := q
            workRequests := f
            recvQueuePending := w.dispatcher.recvQueuePending + (wrs.take k).length } }
        (pool ++ bufs.drop (k * cfg.maxSGEs)) es (wrs.drop k)
  | process (i : Nat) (wc : IbvRecvWc) (p : RecvBufferPool) (r : IncomingRingBuffer)
      (q : RecvWorkRequestPool) : w.pc = .process i → w.dispatcher.workComps[i]? = some wc →
      Moves cfg w pool es wrs
        { w with
          pc := .process (i + 1)
          dispatcher := { w.dispatcher with
            recvBufferPool := p
            ringBuffer := r
            recvWRPool := q
            firstWc := false }
          appended := w.appended ++ [w.withBytes (completionEntries cfg wc (w.sgl wc.wrId))] }
        (pool ++ unusedBuffers cfg wc (w.sgl wc.wrId))
        (es ++ completionEntries cfg wc (w.sgl wc.wrId)) (wrs ++ [wc.wrId])
  | processed (i : Nat) : w.pc = .process i → w.dispatcher.workComps.length ≤ i →
      Moves cfg w pool es wrs { w with pc := .dispatchReceived } pool es wrs
  | ringEmpty : w.pc = .dispatchReceived → es = [] →
      Moves cfg w pool es wrs { w with pc := .poll } pool es wrs
  | give (processed : Nat) (r : IncomingRingBuffer) : w.pc = .dispatchReceived →
      processed ≤ es.length →
      Moves cfg w pool es wrs
        (give (es.take processed)
          { w with pc := .poll, dispatcher := { w.dispatcher with ringBuffer := r } })
        pool (es.drop processed) wrs
  | returnBuffers (bs : List IbMemReg) (p : RecvBufferPool) : bs.Subperm w.handler →
      Moves cfg w pool es wrs
        { w with
          dispatcher := { w.dispatcher with recvBufferPool := p }
          handler := w.handler.diff bs }
        (pool ++ bs) es wrs

/-! ## The invariant -/

/-- The dispatcher holds `pool`, `es` and `wrs`, everything is in one place, and
what is left to do fits into ring buffer and work request pool. -/
structure Custody (cfg : RecvConfig) (w : RecvWorld) (pool : List IbMemReg) (es : List Entry)
    (wrs : List Nat) : Prop where
  thrown : w.thrown = none
  holds : w.dispatcher.Holds cfg pool es wrs
  buffers : (w.places pool es).Perm (List.range cfg.bufferPoolSize)
  objects : (wrs ++ w.posted ++ w.unprocessed.map IbvRecvWc.wrId).Perm
    (List.range (cfg.ibSRQSize * 2))
  pending : w.dispatcher.recvQueuePending = w.posted.length
  posted_le : w.posted.length ≤ cfg.ibSRQSize
  refilling : ∀ n bufs, w.pc = .refillPost n bufs → n + w.posted.length = cfg.ibSRQSize
  unprocessed_le : w.unprocessed.length ≤ cfg.ibSRQSize
  capacity : es.length + w.unprocessed.length * max 1 cfg.maxSGEs ≤ cfg.ibSRQSize * cfg.maxSGEs
  maxSges : ∀ id, (w.dispatcher.workRequests id).sgls.maxSges = cfg.maxSGEs
  prepared : ∀ id ∈ w.posted, (w.dispatcher.workRequests id).recvWr.sgList = w.sgl id ∧
    (w.sgl id).length = cfg.maxSGEs
  completions : ∀ wc ∈ w.unprocessed, wc.status = .success ∧
    (wc.byteLen = 0 → wc.immData.flowControlData ≠ 0) ∧ (w.sgl wc.wrId).length = cfg.maxSGEs
  undelivered : ∀ b ∈ w.undelivered,
    (∃ wc ∈ w.unprocessed, b ∈ filledBuffers cfg (w.sgl wc.wrId) wc.byteLen) ∨
      b ∈ es.filterMap Entry.data

section
variable {cfg : RecvConfig} {w w' : RecvWorld} {pool pool' : List IbMemReg} {es es' : List Entry}
  {wrs wrs' : List Nat}

theorem Custody.queues (h : Custody cfg w pool es wrs) : Queues cfg w es wrs where
  fits := h.holds.fits
  objects := h.objects
  pending := h.pending
  posted_le := h.posted_le
  refilling := h.refilling
  unprocessed_le := h.unprocessed_le
  capacity := h.capacity
  maxSges := h.maxSges
  prepared id hid := (h.prepared id hid).2
  completions wc hwc := ⟨(h.completions wc hwc).1, (h.completions wc hwc).2.2⟩

/-- What the invariant says beyond `Queues`. -/
theorem Queues.custody (h : Queues cfg w es wrs) (hthrown : w.thrown = none)
    (hpool : w.dispatcher.recvBufferPool.Holds pool)
    (hsize : w.dispatcher.recvBufferPool.bufferPoolSize = cfg.bufferPoolSize)
    (hexact : cfg.PoolExact)
    (hbuffers : (w.places pool es).Perm (List.range cfg.bufferPoolSize))
    (hprepared : ∀ id ∈ w.posted, (w.dispatcher.workRequests id).recvWr.sgList = w.sgl id)
    (hcompletions : ∀ wc ∈ w.unprocessed, wc.byteLen = 0 → wc.immData.flowControlData ≠ 0)
    (hundelivered : ∀ b ∈ w.undelivered,
      (∃ wc ∈ w.unprocessed, b ∈ filledBuffers cfg (w.sgl wc.wrId) wc.byteLen) ∨
        b ∈ es.filterMap Entry.data) : Custody cfg w pool es wrs where
  thrown := hthrown
  holds := h.fits.holds hpool hsize hexact
  buffers := hbuffers
  objects := h.objects
  pending := h.pending
  posted_le := h.posted_le
  refilling := h.refilling
  unprocessed_le := h.unprocessed_le
  capacity := h.capacity
  maxSges := h.maxSges
  prepared id hid := ⟨hprepared id hid, h.prepared id hid⟩
  completions wc hwc := ⟨(h.completions wc hwc).1, hcompletions wc hwc, (h.completions wc hwc).2⟩
  undelivered := hundelivered

theorem init_custody (cfg : RecvConfig) (hexact : cfg.PoolExact) :
    Custody cfg (init cfg) (List.range cfg.bufferPoolSize) []
      (List.range (cfg.ibSRQSize * 2)) := by
  have hholds := RecvDispatcher.init_holds cfg hexact
  refine (init_queues cfg).custody rfl hholds.pool hholds.poolSize hexact ?_ ?_ ?_ ?_
  · simp [places, taken, unprocessed, init]
  · simp [init]
  · simp [unprocessed, init]
  · simp [init]

namespace Custody

variable (h : Custody cfg w pool es wrs)

include h

theorem length_places : pool.length + w.taken.length + (w.posted.flatMap w.sgl).length +
    (w.unprocessed.flatMap fun wc => w.sgl wc.wrId).length + (es.filterMap Entry.data).length +
    w.handler.length = cfg.bufferPoolSize := by
  have hlen := h.buffers.length_eq
  simpa only [places, List.length_append, List.length_range] using hlen

theorem run_process {i : Nat} {wc : IbvRecvWc} (hpc : w.pc = .process i)
    (hwc : w.dispatcher.workComps[i]? = some wc) :
    ∃ p r q, (RecvDispatcher.processCompletion cfg wc).run w.dispatcher = .ok () { w.dispatcher with
        recvBufferPool := p, ringBuffer := r, recvWRPool := q, firstWc := false } ∧
      RecvDispatcher.Holds cfg { w.dispatcher with
          recvBufferPool := p, ringBuffer := r, recvWRPool := q, firstWc := false }
        (pool ++ unusedBuffers cfg wc (w.sgl wc.wrId))
        (es ++ completionEntries cfg wc (w.sgl wc.wrId)) (wrs ++ [wc.wrId]) := by
  have hunprocessed := unprocessed_process hpc hwc
  obtain ⟨hstatus, hfc, hfull⟩ := h.completions wc (by rw [hunprocessed]; exact List.mem_cons_self)
  have hplaces := h.length_places
  have hcapacity := h.capacity
  have hobjects := h.queues.length_objects
  simp only [hunprocessed, List.flatMap_cons, List.length_append, List.length_cons,
    Nat.succ_mul] at hplaces hcapacity hobjects
  obtain ⟨p, hreturn, hp, hsize⟩ := h.holds.run_returnBuffers
    (unusedBuffers cfg wc (w.sgl wc.wrId)) (by rw [unusedBuffers, List.length_drop]; omega)
  obtain ⟨r, q, hrun, hfits⟩ := h.holds.fits.run_processCompletion hstatus
    (by rw [← sgl, hfull]; omega) (by omega) hfc hreturn
  exact ⟨p, r, q, hrun, hfits.holds hp hsize h.holds.poolExact⟩

/-! ### What a step does, given that its surroundings behave -/

theorem moves_poll {arrivals : List Arrival} (ha : Admissible cfg w (.poll (some arrivals)))
    (hs : step cfg w (.poll (some arrivals)) = some w') :
    ∃ pool' es' wrs', Moves cfg w pool es wrs w' pool' es' wrs' ∧
      w'.dispatcher.Holds cfg pool' es' wrs' := by
  unfold step at hs
  rw [if_neg (by simp [h.thrown])] at hs
  cases hpc : w.pc <;> simp only [hpc, reduceCtorEq] at hs
  obtain ⟨hlen, hposted⟩ : arrivals.length ≤ w.dispatcher.pollLimit cfg ∧
      (arrivals.map Arrival.wrId).Subperm w.posted := by
    by_contra hguard
    rw [if_neg hguard] at hs
    cases hs
  rw [if_pos ⟨hlen, hposted⟩, Option.some.injEq] at hs
  have hlen' : (arrivals.map Arrival.toWc).length ≤ w.dispatcher.pollLimit cfg := by
    rw [List.length_map]
    exact hlen
  obtain ⟨b, hrun⟩ := RecvDispatcher.run_poll hlen'
  have hdispatcher : (arrivals.foldl (arrive cfg) w).dispatcher = w.dispatcher := by
    rw [foldl_arrive_eq]
  rw [← hdispatcher] at hrun
  rw [call_ok hrun, hdispatcher, List.length_map] at hs
  subst hs
  exact ⟨pool, es, wrs, .poll arrivals hpc hlen hposted ha, h.holds.of_eq rfl rfl rfl⟩

theorem moves_refill (hs : step cfg w .refill = some w') :
    ∃ pool' es' wrs', Moves cfg w pool es wrs w' pool' es' wrs' ∧
      w'.dispatcher.Holds cfg pool' es' wrs' := by
  unfold step at hs
  rw [if_neg (by simp [h.thrown])] at hs
  cases hpc : w.pc <;> simp only [hpc, reduceCtorEq, Option.some.injEq] at hs
  rcases h.holds.run_refillGetBuffers with ⟨-, hrun⟩ | ⟨k, p, hpending, hk, hrun, hholds⟩
  · rw [call_ok hrun] at hs
    subst hs
    exact ⟨pool, es, wrs, .queueFull hpc, h.holds⟩
  · rw [call_ok hrun] at hs
    subst hs
    exact ⟨pool.drop k, es, wrs, .getBuffers k p hpc hpending hk, hholds⟩

theorem moves_refillPost (hs : step cfg w (.refillPost none) = some w') :
    ∃ pool' es' wrs', Moves cfg w pool es wrs w' pool' es' wrs' ∧
      w'.dispatcher.Holds cfg pool' es' wrs' := by
  unfold step at hs
  rw [if_neg (by simp [h.thrown])] at hs
  cases hpc : w.pc <;> simp only [hpc, reduceCtorEq, Option.some.injEq] at hs
  next n bufs =>
  have hn := h.refilling n bufs hpc
  have hobjects := h.queues.length_objects
  have hplaces := h.length_places
  have hunprocessed := h.unprocessed_le
  have htaken : w.taken = bufs := by rw [taken, hpc]
  rw [htaken] at hplaces
  have hnodup := h.queues.nodup
  have hn' : n ≤ wrs.length := by omega
  obtain ⟨k, q, f, hk, hkbufs, -, hok, hfits, hother, hmax, hprep, hbufs, hlist⟩ :=
    h.holds.fits.run_refillPrepare hnodup h.maxSges hn' bufs
  obtain ⟨p, hreturn, hp, hsize⟩ := h.holds.run_returnBuffers (bufs.drop (k * cfg.maxSGEs))
    (by rw [List.length_drop]; omega)
  have hrun := hok p hreturn
  have hfits' : RecvDispatcher.Fits cfg { w.dispatcher with
      recvBufferPool := p, recvWRPool := q, workRequests := f } es (wrs.drop k) :=
    hfits.of_eq rfl rfl
  have hposted : w.posted.length + (wrs.take k).length ≤ cfg.ibSRQSize := by
    rw [List.length_take]
    omega
  have hpost := post_eq (w := { w with dispatcher := { w.dispatcher with
    recvBufferPool := p, recvWRPool := q, workRequests := f } }) hposted
    fun id ids hids => (hlist p id ids hids).trans hids.symm
  rw [call_ok hrun, hpost] at hs
  subst hs
  exact ⟨_, es, _, .post k n bufs p q f hpc hk hkbufs hother hmax hprep hbufs,
    (hfits'.holds hp hsize h.holds.poolExact).of_eq rfl rfl rfl⟩

theorem moves_process (hs : step cfg w .process = some w') :
    ∃ pool' es' wrs', Moves cfg w pool es wrs w' pool' es' wrs' ∧
      w'.dispatcher.Holds cfg pool' es' wrs' := by
  unfold step at hs
  rw [if_neg (by simp [h.thrown])] at hs
  cases hpc : w.pc <;> simp only [hpc, reduceCtorEq] at hs
  next i =>
  cases hwc : w.dispatcher.workComps[i]? with
  | none =>
    simp only [hwc, Option.some.injEq] at hs
    subst hs
    exact ⟨pool, es, wrs, .processed i hpc (List.getElem?_eq_none_iff.mp hwc), h.holds⟩
  | some wc =>
    obtain ⟨p, r, q, hrun, hholds⟩ := h.run_process hpc hwc
    have hentries : ((r.read r.usedEntries).drop w.dispatcher.ringBuffer.usedEntries) =
        completionEntries cfg wc (w.sgl wc.wrId) := by
      have hr := hholds.ring
      have hread := hr.read_eq (Nat.le_refl _)
      rw [← hr.usedEntries_eq, hr.usedEntries_eq, List.take_length] at hread
      rw [hr.usedEntries_eq, hread, h.holds.ring.usedEntries_eq, List.drop_left]
    simp only [hwc, Option.some.injEq, call_ok hrun, entriesFrom, hentries] at hs
    subst hs
    exact ⟨_, _, _, .process i wc p r q hpc hwc, hholds⟩

theorem moves_dispatchReceived {processed : Nat}
    (ha : Admissible cfg w (.dispatchReceived processed))
    (hs : step cfg w (.dispatchReceived processed) = some w') :
    ∃ pool' es' wrs', Moves cfg w pool es wrs w' pool' es' wrs' ∧
      w'.dispatcher.Holds cfg pool' es' wrs' := by
  unfold step at hs
  rw [if_neg (by simp [h.thrown])] at hs
  cases hpc : w.pc <;> simp only [hpc, reduceCtorEq, Option.some.injEq] at hs
  have hle : processed ≤ es.length := by
    rw [← h.holds.ring.usedEntries_eq]
    exact ha
  rcases h.holds.fits.run_dispatchReceived (fun _ => hle) with
    ⟨hempty, hrun⟩ | ⟨r, hne, hrun, hfits⟩
  · rw [call_ok hrun] at hs
    subst hs
    exact ⟨pool, es, wrs, .ringEmpty hpc hempty, h.holds⟩
  · simp only [call_ok hrun, if_true, h.holds.ring.read_eq hle] at hs
    subst hs
    exact ⟨pool, es.drop processed, wrs, .give processed r hpc hle,
      hfits.holds h.holds.pool h.holds.poolSize h.holds.poolExact⟩

theorem moves_returnBuffers {bs : List IbMemReg} (hs : step cfg w (.returnBuffers bs) = some w') :
    ∃ pool' es' wrs', Moves cfg w pool es wrs w' pool' es' wrs' ∧
      w'.dispatcher.Holds cfg pool' es' wrs' := by
  unfold step at hs
  rw [if_neg (by simp [h.thrown])] at hs
  have hguard : bs.Subperm w.handler := by
    by_contra hguard
    cases hpc : w.pc <;> simp only [hpc, if_neg hguard, reduceCtorEq] at hs
  have hplaces := h.length_places
  have hlen := hguard.length_le
  obtain ⟨p, hreturn, hp, hsize⟩ := h.holds.run_returnBuffers bs (by omega)
  have hrun : (RecvDispatcher.onBufferPool (RecvBufferPool.returnBuffers cfg.arith bs)).run
      w.dispatcher = .ok () { w.dispatcher with recvBufferPool := p } := by
    rw [RecvDispatcher.onBufferPool, Exec.run_zoom, hreturn]
  have hw : some { w with
      dispatcher := { w.dispatcher with recvBufferPool := p }
      handler := w.handler.diff bs } = some w' := by
    cases hpc : w.pc <;> simp only [hpc, if_pos hguard, call_ok hrun] at hs <;> exact hs
  cases hw
  have hfits : RecvDispatcher.Fits cfg { w.dispatcher with recvBufferPool := p } es wrs :=
    h.holds.fits.of_eq rfl rfl
  exact ⟨_, es, wrs, .returnBuffers bs p hguard, hfits.holds hp hsize h.holds.poolExact⟩

theorem moves {a : RecvAction} (ha : Admissible cfg w a) (hs : step cfg w a = some w') :
    ∃ pool' es' wrs', Moves cfg w pool es wrs w' pool' es' wrs' ∧
      w'.dispatcher.Holds cfg pool' es' wrs' := by
  cases a with
  | poll ret =>
    cases ret with
    | none => exact absurd ha id
    | some arrivals => exact h.moves_poll ha hs
  | refill => exact h.moves_refill hs
  | refillPost failsAt =>
    obtain rfl : failsAt = none := ha
    exact h.moves_refillPost hs
  | process => exact h.moves_process hs
  | dispatchReceived processed => exact h.moves_dispatchReceived ha hs
  | returnBuffers bs => exact h.moves_returnBuffers hs

end Custody

/-! ## Every step keeps the invariant -/

/-- Nothing is lost or duplicated as long as the numbers of each buffer in the
new places add up to those in the old ones. -/
theorem Custody.buffers_of_count (h : Custody cfg w pool es wrs)
    (hcount : ∀ b, pool'.count b + w'.taken.count b + (w'.posted.flatMap w'.sgl).count b +
        (w'.unprocessed.flatMap fun wc => w'.sgl wc.wrId).count b +
        (es'.filterMap Entry.data).count b + w'.handler.count b =
      pool.count b + w.taken.count b + (w.posted.flatMap w.sgl).count b +
        (w.unprocessed.flatMap fun wc => w.sgl wc.wrId).count b +
        (es.filterMap Entry.data).count b + w.handler.count b) :
    (w'.places pool' es').Perm (List.range cfg.bufferPoolSize) := by
  refine List.Perm.trans (List.perm_iff_count.mpr fun b => ?_) h.buffers
  simp only [places, List.count_append]
  exact hcount b

theorem count_take_drop {α : Type} [BEq α] (l : List α) (k : Nat) (a : α) :
    (l.take k).count a + (l.drop k).count a = l.count a := by
  rw [← List.count_append, List.take_append_drop]

theorem Custody.step_poll {arrivals : List Arrival} (h : Custody cfg w pool es wrs)
    (hpc : w.pc = .poll) (hlen : arrivals.length ≤ w.dispatcher.pollLimit cfg)
    (hposted : (arrivals.map Arrival.wrId).Subperm w.posted)
    (ha : Admissible cfg w (.poll (some arrivals))) :
    Custody cfg { arrivals.foldl (arrive cfg) w with
      pc := .refill
      dispatcher := { w.dispatcher with
        workComps := arrivals.map Arrival.toWc
        recvQueuePending := w.dispatcher.recvQueuePending - arrivals.length } } pool es wrs := by
  have hnone : w.unprocessed = [] := by rw [unprocessed, hpc]
  have hsplit : (arrivals.map Arrival.wrId ++ w.posted.diff (arrivals.map Arrival.wrId)).Perm
      w.posted :=
    List.subperm_append_diff_self_of_count_le (List.subperm_ext_iff.mp hposted)
  have hqueues := h.queues.step_poll hpc hlen hposted fun a haa => (ha a haa).1
  rw [foldl_arrive_eq] at hqueues ⊢
  refine hqueues.custody h.thrown h.holds.pool h.holds.poolSize h.holds.poolExact
    (h.buffers_of_count fun b => ?_)
    (fun id hid => (h.prepared id (List.diff_subset _ _ hid)).1) (fun wc hwc => ?_) fun b hb => ?_
  · have hperm := (hsplit.flatMap_right w.sgl).count_eq b
    rw [List.flatMap_append, List.count_append, List.flatMap_map] at hperm
    simp only [taken, unprocessed, hpc, List.flatMap_map, List.flatMap_nil,
      List.count_nil]
    change _ + 0 + ((w.posted.diff _).flatMap w.sgl).count b +
      (arrivals.flatMap fun a => w.sgl a.wrId).count b + _ + _ = _
    omega
  · simp only [unprocessed] at hwc
    obtain ⟨a, haa, rfl⟩ := List.mem_map.mp hwc
    exact fun hzero => (ha a haa).2.2 (List.length_eq_zero_iff.mp hzero)
  · rcases List.mem_append.mp hb with hold | hnew
    · rcases h.undelivered b hold with ⟨wc, hwc, -⟩ | hb
      · rw [hnone] at hwc
        exact absurd hwc List.not_mem_nil
      · exact Or.inr hb
    · obtain ⟨a, haa, hba⟩ := List.mem_flatMap.mp hnew
      rw [(h.prepared a.wrId (hposted.subset (List.mem_map_of_mem haa))).1] at hba
      exact Or.inl ⟨a.toWc, List.mem_map_of_mem haa, hba⟩

theorem Custody.step_getBuffers {k : Nat} {p : RecvBufferPool} (h : Custody cfg w pool es wrs)
    (hpc : w.pc = .refill) (hpending : w.dispatcher.recvQueuePending < cfg.ibSRQSize)
    (hholds : RecvDispatcher.Holds cfg { w.dispatcher with recvBufferPool := p } (pool.drop k) es
      wrs) :
    Custody cfg { w with
      pc := .refillPost (cfg.ibSRQSize - w.dispatcher.recvQueuePending) (pool.take k)
      dispatcher := { w.dispatcher with recvBufferPool := p } } (pool.drop k) es wrs := by
  have hunprocessed : w.unprocessed = w.dispatcher.workComps := by rw [unprocessed, hpc]
  have htaken : w.taken = [] := by rw [taken, hpc]
  have hcompletions := h.completions
  have hundelivered := h.undelivered
  have hlen := h.pending
  rw [hunprocessed] at hcompletions hundelivered
  have hqueues : Queues cfg { w with
      pc := .refillPost (cfg.ibSRQSize - w.dispatcher.recvQueuePending) (pool.take k)
      dispatcher := { w.dispatcher with recvBufferPool := p } } es wrs := by
    refine h.queues.congr hholds.fits rfl rfl rfl (by rw [hunprocessed]; rfl) fun n bufs hn => ?_
    simp only [RecvPc.refillPost.injEq] at hn
    omega
  refine hqueues.custody h.thrown hholds.pool hholds.poolSize hholds.poolExact
    (h.buffers_of_count fun b => ?_)
    (fun id hid => (h.prepared id hid).1) (fun wc hwc => (hcompletions wc hwc).2.1) hundelivered
  have hcount := count_take_drop pool k b
  rw [htaken, hunprocessed, List.count_nil]
  simp only [taken, unprocessed]
  change (pool.drop k).count b + (pool.take k).count b + (w.posted.flatMap w.sgl).count b +
    (w.dispatcher.workComps.flatMap fun wc => w.sgl wc.wrId).count b + _ + _ = _
  omega

theorem Custody.step_process {i : Nat} {wc : IbvRecvWc} {p : RecvBufferPool}
    {r : IncomingRingBuffer} {q : RecvWorkRequestPool} (h : Custody cfg w pool es wrs)
    (hpc : w.pc = .process i) (hwc : w.dispatcher.workComps[i]? = some wc)
    (hholds : RecvDispatcher.Holds cfg { w.dispatcher with
        recvBufferPool := p, ringBuffer := r, recvWRPool := q, firstWc := false }
      (pool ++ unusedBuffers cfg wc (w.sgl wc.wrId))
      (es ++ completionEntries cfg wc (w.sgl wc.wrId)) (wrs ++ [wc.wrId])) :
    Custody cfg { w with
        pc := .process (i + 1)
        dispatcher := { w.dispatcher with
          recvBufferPool := p, ringBuffer := r, recvWRPool := q, firstWc := false }
        appended := w.appended ++ [w.withBytes (completionEntries cfg wc (w.sgl wc.wrId))] }
      (pool ++ unusedBuffers cfg wc (w.sgl wc.wrId))
      (es ++ completionEntries cfg wc (w.sgl wc.wrId)) (wrs ++ [wc.wrId]) := by
  have hunprocessed := unprocessed_process hpc hwc
  have htaken : w.taken = [] := by rw [taken, hpc]
  have hcompletions := h.completions
  have hundelivered := h.undelivered
  rw [hunprocessed] at hcompletions hundelivered
  have hfilled := filterMap_data_completionEntries cfg wc (w.sgl wc.wrId)
  refine (h.queues.step_process hpc hwc hholds.fits).custody h.thrown hholds.pool hholds.poolSize
    hholds.poolExact (h.buffers_of_count fun b => ?_) (fun id hid => (h.prepared id hid).1)
    (fun wc' hwc' => (hcompletions wc' (List.mem_cons_of_mem _ hwc')).2.1) fun b hb => ?_
  · have hsgl := congrArg (List.count b) (filledBuffers_append_unusedBuffers cfg wc (w.sgl wc.wrId))
    rw [List.count_append] at hsgl
    rw [htaken, hunprocessed, List.flatMap_cons, List.filterMap_append, hfilled,
      List.count_append, List.count_append, List.count_append, List.count_nil]
    simp only [taken, unprocessed, List.count_nil]
    change pool.count b + (unusedBuffers cfg wc (w.sgl wc.wrId)).count b + 0 +
      (w.posted.flatMap w.sgl).count b +
      ((w.dispatcher.workComps.drop (i + 1)).flatMap fun wc => w.sgl wc.wrId).count b + _ +
      w.handler.count b = _
    omega
  · rcases hundelivered b hb with ⟨wc', hwc', hb'⟩ | hb'
    · rcases List.mem_cons.mp hwc' with rfl | hwc'
      · right
        rw [List.filterMap_append, hfilled]
        exact List.mem_append_right _ hb'
      · exact Or.inl ⟨wc', hwc', hb'⟩
    · right
      rw [List.filterMap_append]
      exact List.mem_append_left _ hb'

theorem Custody.step_post {k n : Nat} {bufs : List IbMemReg} {p : RecvBufferPool}
    {q : RecvWorkRequestPool} {f : Nat → RecvWorkRequest} (h : Custody cfg w pool es wrs)
    (hpc : w.pc = .refillPost n bufs) (hk : k ≤ n)
    (hother : ∀ id, id ∉ wrs.take k → f id = w.dispatcher.workRequests id)
    (hmax : ∀ id, (f id).sgls.maxSges = cfg.maxSGEs)
    (hprep : ∀ id ∈ wrs.take k, (f id).recvWr.sgList = (f id).sgls.refsMemReg ∧
      (f id).sgls.refsMemReg.length = cfg.maxSGEs)
    (hbufs : ((wrs.take k).flatMap fun id => (f id).sgls.refsMemReg) =
      bufs.take (k * cfg.maxSGEs))
    (hholds : RecvDispatcher.Holds cfg { w.dispatcher with
        recvBufferPool := p
        recvWRPool := q
        workRequests := f
        recvQueuePending := w.dispatcher.recvQueuePending + (wrs.take k).length }
      (pool ++ bufs.drop (k * cfg.maxSGEs)) es (wrs.drop k)) :
    Custody cfg { w with
        pc := .process 0
        posted := w.posted ++ wrs.take k
        dispatcher := { w.dispatcher with
          recvBufferPool := p
          recvWRPool := q
          workRequests := f
          recvQueuePending := w.dispatcher.recvQueuePending + (wrs.take k).length } }
      (pool ++ bufs.drop (k * cfg.maxSGEs)) es (wrs.drop k) := by
  have hunprocessed : w.unprocessed = w.dispatcher.workComps := by rw [unprocessed, hpc]
  have htaken : w.taken = bufs := by rw [taken, hpc]
  have hcompletions := h.completions
  have hundelivered := h.undelivered
  obtain ⟨hposted, hcompleted⟩ := h.queues.workRequests_eq hother
  rw [hunprocessed] at hcompleted hcompletions hundelivered
  have hsgl : ∀ wc ∈ w.dispatcher.workComps, (f wc.wrId).sgls.refsMemReg = w.sgl wc.wrId :=
    fun wc hwc => congrArg (fun wr => wr.sgls.refsMemReg) (hcompleted wc hwc)
  refine (h.queues.step_post hpc hk hother hmax (fun id hid => (hprep id hid).2)
    (hholds.fits.of_eq rfl rfl)).custody h.thrown hholds.pool hholds.poolSize
    hholds.poolExact (h.buffers_of_count fun b => ?_) (fun id hid => ?_)
    (fun wc hwc => (hcompletions wc hwc).2.1) fun b hb => ?_
  · have hcount := count_take_drop bufs (k * cfg.maxSGEs) b
    have hold : w.posted.flatMap (fun id => (f id).sgls.refsMemReg) = w.posted.flatMap w.sgl :=
      List.flatMap_congr fun id hid => congrArg (fun wr => wr.sgls.refsMemReg) (hposted id hid)
    have hwcs : (w.dispatcher.workComps.flatMap fun wc => (f wc.wrId).sgls.refsMemReg) =
        w.dispatcher.workComps.flatMap fun wc => w.sgl wc.wrId := List.flatMap_congr hsgl
    rw [htaken, hunprocessed]
    simp only [taken, unprocessed, List.count_nil, List.count_append, List.drop_zero]
    change _ + 0 + ((w.posted ++ wrs.take k).flatMap fun id => (f id).sgls.refsMemReg).count b +
      (w.dispatcher.workComps.flatMap fun wc => (f wc.wrId).sgls.refsMemReg).count b + _ + _ = _
    rw [List.flatMap_append, List.count_append, hold, hwcs, hbufs]
    omega
  · change (f id).recvWr.sgList = (f id).sgls.refsMemReg
    rcases List.mem_append.mp hid with hold | hnew
    · rw [hposted id hold]
      exact (h.prepared id hold).1
    · exact (hprep id hnew).1
  · rcases hundelivered b hb with ⟨wc, hwc, hb'⟩ | hb'
    · refine Or.inl ⟨wc, hwc, ?_⟩
      change b ∈ filledBuffers cfg (f wc.wrId).sgls.refsMemReg wc.byteLen
      rw [hsgl wc hwc]
      exact hb'
    · exact Or.inr hb'

/-- A step that only moves the program counter, between points with the same
completions left to process and no buffers taken. -/
theorem Custody.of_pc {pc : RecvPc} (h : Custody cfg w pool es wrs)
    (htaken : taken { w with pc := pc } = w.taken)
    (hunprocessed : unprocessed { w with pc := pc } = w.unprocessed)
    (hrefilling : ∀ n bufs, pc ≠ .refillPost n bufs) :
    Custody cfg { w with pc := pc } pool es wrs := by
  have hqueues : Queues cfg { w with pc := pc } es wrs :=
    h.queues.congr h.holds.fits rfl rfl rfl hunprocessed
      fun n bufs hn => absurd hn (hrefilling n bufs)
  refine hqueues.custody h.thrown h.holds.pool h.holds.poolSize h.holds.poolExact ?_
    (fun id hid => (h.prepared id hid).1) (fun wc hwc => ?_) ?_
  · rw [places, htaken, hunprocessed]
    exact h.buffers
  · rw [hunprocessed] at hwc
    exact (h.completions wc hwc).2.1
  · rw [hunprocessed]
    exact h.undelivered

theorem Custody.step_give {processed : Nat} {r : IncomingRingBuffer}
    (h : Custody cfg w pool es wrs) (hpc : w.pc = .dispatchReceived)
    (hholds : RecvDispatcher.Holds cfg { w.dispatcher with ringBuffer := r } pool
      (es.drop processed) wrs) :
    Custody cfg (give (es.take processed)
      { w with pc := .poll, dispatcher := { w.dispatcher with ringBuffer := r } })
      pool (es.drop processed) wrs := by
  have hnone : w.unprocessed = [] := by rw [unprocessed, hpc]
  have htaken : w.taken = [] := by rw [taken, hpc]
  refine (h.queues.step_give hpc hholds.fits).custody h.thrown hholds.pool hholds.poolSize
    hholds.poolExact (h.buffers_of_count fun b => ?_) (fun id hid => (h.prepared id hid).1)
    (fun wc hwc => absurd hwc List.not_mem_nil) fun b hb => ?_
  · have hes : (es.filterMap Entry.data).count b =
        ((es.take processed).filterMap Entry.data).count b +
          ((es.drop processed).filterMap Entry.data).count b := by
      rw [← List.count_append, ← List.filterMap_append, List.take_append_drop]
    rw [htaken, hnone]
    simp only [give, taken, unprocessed, List.count_nil, List.count_append, List.flatMap_nil]
    change pool.count b + 0 + (w.posted.flatMap w.sgl).count b + 0 + _ + _ = _
    omega
  · obtain ⟨hb', hnot⟩ := List.mem_filter.mp hb
    rcases h.undelivered b hb' with ⟨wc, hwc, -⟩ | hmem
    · rw [hnone] at hwc
      exact absurd hwc List.not_mem_nil
    · rw [← List.take_append_drop processed es, List.filterMap_append] at hmem
      rcases List.mem_append.mp hmem with hmem | hmem
      · exact absurd hmem (of_decide_eq_true hnot)
      · exact Or.inr hmem

theorem Custody.step_returnBuffers {bs : List IbMemReg} {p : RecvBufferPool}
    (h : Custody cfg w pool es wrs) (hbs : bs.Subperm w.handler)
    (hholds : RecvDispatcher.Holds cfg { w.dispatcher with recvBufferPool := p } (pool ++ bs) es
      wrs) :
    Custody cfg { w with
      dispatcher := { w.dispatcher with recvBufferPool := p }
      handler := w.handler.diff bs } (pool ++ bs) es wrs := by
  have hqueues : Queues cfg { w with
      dispatcher := { w.dispatcher with recvBufferPool := p }
      handler := w.handler.diff bs } es wrs :=
    h.queues.congr hholds.fits rfl rfl rfl rfl h.refilling
  refine hqueues.custody h.thrown hholds.pool hholds.poolSize hholds.poolExact
    (h.buffers_of_count fun b => ?_)
    (fun id hid => (h.prepared id hid).1) (fun wc hwc => (h.completions wc hwc).2.1) h.undelivered
  have hsplit : (bs ++ w.handler.diff bs).Perm w.handler :=
    List.subperm_append_diff_self_of_count_le (List.subperm_ext_iff.mp hbs)
  have hcount := hsplit.count_eq b
  rw [List.count_append] at hcount
  rw [List.count_append]
  change pool.count b + bs.count b + w.taken.count b + (w.posted.flatMap w.sgl).count b +
    (w.unprocessed.flatMap fun wc => w.sgl wc.wrId).count b + _ + (w.handler.diff bs).count b = _
  omega

/-- Every step keeps the invariant. -/
theorem Custody.preserved (h : Custody cfg w pool es wrs)
    (hmoves : Moves cfg w pool es wrs w' pool' es' wrs')
    (hholds : w'.dispatcher.Holds cfg pool' es' wrs') : Custody cfg w' pool' es' wrs' := by
  cases hmoves with
  | poll arrivals hpc hlen hposted ha => exact h.step_poll hpc hlen hposted ha
  | queueFull hpc =>
    exact h.of_pc (by rw [taken, taken, hpc]) (by rw [unprocessed, unprocessed, hpc]; rfl)
      (fun n bufs => by simp)
  | getBuffers k p hpc hpending hk => exact h.step_getBuffers hpc hpending hholds
  | post k n bufs p q f hpc hk hkbufs hother hmax hprep hbufs =>
    exact h.step_post hpc hk hother hmax hprep hbufs hholds
  | process i wc p r q hpc hwc => exact h.step_process hpc hwc hholds
  | processed i hpc hi =>
    exact h.of_pc (by rw [taken, taken, hpc])
      (by rw [unprocessed, unprocessed, hpc]; exact (List.drop_eq_nil_of_le hi).symm)
      (fun n bufs => by simp)
  | ringEmpty hpc _ =>
    exact h.of_pc (by rw [taken, taken, hpc]) (by rw [unprocessed, unprocessed, hpc])
      (fun n bufs => by simp)
  | give processed r hpc hle => exact h.step_give hpc hholds
  | returnBuffers bs p hbs => exact h.step_returnBuffers hbs hholds

/-- Buffers in the pool hold no undelivered data: those that do are elsewhere. -/
theorem Custody.toOwnedOnce (h : Custody cfg w pool es wrs) : OwnedOnce cfg w := by
  refine ⟨pool, es, h.holds.pool, h.holds.ring, h.buffers, fun b hb hund => ?_⟩
  have hnodup : (w.places pool es).Nodup := h.buffers.symm.nodup List.nodup_range
  simp only [places, List.append_assoc] at hnodup
  have hdisjoint := (List.nodup_append.mp hnodup).2.2 b hb b
  rcases h.undelivered b hund with ⟨wc, hwc, hb'⟩ | hb'
  · have hsgl : b ∈ w.sgl wc.wrId := (filledBuffers_prefix_of cfg _ _).subset hb'
    refine hdisjoint ?_ rfl
    simp only [List.mem_append]
    exact Or.inr (Or.inr (Or.inl (List.mem_flatMap.mpr ⟨wc, hwc, hsgl⟩)))
  · refine hdisjoint ?_ rfl
    simp only [List.mem_append]
    exact Or.inr (Or.inr (Or.inr (Or.inl hb')))

end

/-! ## Every run -/

theorem custody_of_exec {cfg : RecvConfig} {w : RecvWorld} {as : List RecvAction}
    (hexact : cfg.PoolExact) (ha : Lts.Along (step cfg) (Admissible cfg) (init cfg) as)
    (h : Lts.exec (step cfg) (init cfg) as = some w) :
    ∃ pool es wrs, Custody cfg w pool es wrs := by
  refine Lts.exec_invariant_along (I := fun w => ∃ pool es wrs, Custody cfg w pool es wrs)
    ?_ ⟨_, _, _, init_custody cfg hexact⟩ ha h
  rintro w a w' ⟨pool, es, wrs, hc⟩ ha hs
  obtain ⟨pool', es', wrs', hmoves, hholds⟩ := hc.moves ha hs
  exact ⟨pool', es', wrs', hc.preserved hmoves hholds⟩

/-- With fewer than `2 ^ 31` buffers, in every state of every run no exception has
been thrown and every buffer is in exactly one place, the array of `__Refill` being
one only inside `__Refill`. -/
theorem ownedOnce {cfg : RecvConfig} {w : RecvWorld} {as : List RecvAction}
    (harith : cfg.arith = .uint32) (hsize : cfg.bufferPoolSize < 2 ^ 31)
    (ha : Lts.Along (step cfg) (Admissible cfg) (init cfg) as)
    (h : Lts.exec (step cfg) (init cfg) as = some w) :
    w.thrown = none ∧ OwnedOnce cfg w ∧
      ((∀ n bufs, w.pc ≠ .refillPost n bufs) → w.taken = []) := by
  obtain ⟨pool, es, wrs, hc⟩ := custody_of_exec (RecvConfig.poolExact_of_lt harith hsize) ha h
  refine ⟨hc.thrown, hc.toOwnedOnce, fun hpc => ?_⟩
  rw [taken]
  split
  · next n bufs heq => exact absurd heq (hpc n bufs)
  · rfl

/-- Five buffers of four bytes, two work requests with two buffers each. -/
def smallRecvConfig : RecvConfig where
  arith := .uint32
  ibSRQSize := 2
  maxSGEs := 2
  recvBufferSize := 4
  memoryPool := 0
  bufferPoolSize := 5

/-- A call of `Dispatch` that polls these arrivals, with their number of `process`
steps, and a handler that processes this many entries. -/
def dispatchSteps (arrivals : List Arrival) (processed : Nat) : List RecvAction :=
  [.poll (some arrivals), .refill, .refillPost none] ++
    List.replicate (arrivals.length + 1) .process ++ [.dispatchReceived processed]

/-- Two messages, one of five bytes and one of flow control data only; the handler
takes the entries one at a time and returns the first buffer. -/
def twoMessages : List RecvAction :=
  dispatchSteps [] 0 ++
    dispatchSteps [⟨0, .success, ⟨[1, 2, 3, 4, 5], ⟨7, 9⟩⟩⟩, ⟨1, .success, ⟨[], ⟨7, 3⟩⟩⟩] 1 ++
    [.returnBuffers [0]] ++ dispatchSteps [] 1

theorem ownedOnce_twoMessages : ∃ w,
    Lts.exec (step smallRecvConfig) (init smallRecvConfig) twoMessages = some w ∧
    w.thrown = none ∧ OwnedOnce smallRecvConfig w ∧
      ((∀ n bufs, w.pc ≠ .refillPost n bufs) → w.taken = []) := by
  have hsome : (Lts.exec (step smallRecvConfig) (init smallRecvConfig) twoMessages).isSome := by
    decide +kernel
  obtain ⟨w, hw⟩ := Option.isSome_iff_exists.mp hsome
  exact ⟨w, hw, ownedOnce rfl (by decide) (by decide +kernel) hw⟩

/-! ### A pool of `2 ^ 32 - 2` buffers -/

/-- The sum of the position behind the last buffer and two is `2 ^ 32`. -/
def hugeRecvConfig : RecvConfig where
  arith := .uint32
  ibSRQSize := 1
  maxSGEs := 2
  recvBufferSize := 4
  memoryPool := 0
  bufferPoolSize := 2 ^ 32 - 2

/-- One message of five bytes; the handler takes both its buffers and returns them. -/
def oneMessage : List RecvAction :=
  dispatchSteps [] 0 ++ dispatchSteps [⟨0, .success, ⟨[1, 2, 3, 4, 5], ⟨7, 9⟩⟩⟩] 2 ++
    [.returnBuffers [0, 1]]

/-- What `RecvBufferPool.Holds` says of the number of buffers in the pool. -/
theorem OwnedOnce.length_eq {cfg : RecvConfig} {w : RecvWorld} (h : OwnedOnce cfg w) :
    ∃ k, k ≤ w.dispatcher.recvBufferPool.bufferPoolSize ∧
      w.dispatcher.recvBufferPool.dataBuffersBack =
        (w.dispatcher.recvBufferPool.dataBuffersFront + k) %
          w.dispatcher.recvBufferPool.bufferPoolSizeGapped ∧
      (w.dispatcher.ringBuffer.usedEntries = 0 →
        k + w.taken.length + (w.posted.flatMap w.sgl).length +
          (w.unprocessed.flatMap fun wc => w.sgl wc.wrId).length + w.handler.length =
        cfg.bufferPoolSize) := by
  obtain ⟨pool, es, hpool, hring, hplaces, -⟩ := h
  refine ⟨pool.length, hpool.length_le, hpool.back_eq, fun hused => ?_⟩
  have hes : es = [] := List.length_eq_zero_iff.mp (by rw [← hring.usedEntries_eq, hused])
  have hlen := hplaces.length_eq
  rw [hes] at hlen
  simpa [places, Nat.add_assoc] using hlen

/-- The sum wraps around to 0, so the back pointer ends up in front of the second of
the two buffers. -/
theorem oneMessage_not_ownedOnce :
    Lts.Along (step hugeRecvConfig) (Admissible hugeRecvConfig) (init hugeRecvConfig) oneMessage ∧
    ∃ w, Lts.exec (step hugeRecvConfig) (init hugeRecvConfig) oneMessage = some w ∧
      w.thrown = none ∧ ¬ OwnedOnce hugeRecvConfig w := by
  have hpositions : ((Lts.exec (step hugeRecvConfig) (init hugeRecvConfig) oneMessage).map
      fun w => (w.dispatcher.recvBufferPool.bufferPoolSize,
        w.dispatcher.recvBufferPool.dataBuffersFront, w.dispatcher.recvBufferPool.dataBuffersBack,
        w.dispatcher.ringBuffer.usedEntries)) = some (2 ^ 32 - 2, 4, 0, 0) := by
    decide +kernel
  have hlengths : ((Lts.exec (step hugeRecvConfig) (init hugeRecvConfig) oneMessage).map
      fun w => (w.thrown, w.taken, w.posted.flatMap w.sgl,
        w.unprocessed.flatMap fun wc => w.sgl wc.wrId, w.handler)) =
      some (none, [], [2, 3], [], []) := by
    decide +kernel
  refine ⟨by decide +kernel, ?_⟩
  cases hw : Lts.exec (step hugeRecvConfig) (init hugeRecvConfig) oneMessage with
  | none => simp [hw] at hpositions
  | some w =>
    simp only [hw, Option.map_some, Option.some.injEq, Prod.mk.injEq] at hpositions hlengths
    obtain ⟨hsize, hfront, hback, hused⟩ := hpositions
    obtain ⟨hthrown, htaken, hposted, hunprocessed, hhandler⟩ := hlengths
    refine ⟨w, rfl, hthrown, fun hown => ?_⟩
    -- from slot 4 up to slot 0 there is room for one buffer less than there should be
    obtain ⟨k, hk, hmod, hsum⟩ := hown.length_eq
    have hN := hsum hused
    rw [htaken, hposted, hunprocessed, hhandler] at hN
    rw [hback, hfront, RecvBufferPool.bufferPoolSizeGapped, hsize] at hmod
    have hcfg : hugeRecvConfig.bufferPoolSize = 2 ^ 32 - 2 := rfl
    simp only [List.length_nil, List.length_cons, hcfg] at hN
    omega

end RecvWorld

end Ibdxnet.Msgrc
