import Ibdxnet.Msgrc.RecvDispatcher

/-!
# What the receive dispatcher's functions do

One lemma for each function of `RecvDispatcher`, on a dispatcher whose ring buffer
and work request pool are well formed (`RecvDispatcher.Fits`), and which has the
buffer pool in any state.  If the buffer pool does not throw (as it does not when
it is well formed and has room, `RecvDispatcher.Holds`), none of them throws, and
the lists held change as follows.

    refillGetBuffers   takes buffers from the pool
    refillPrepare      work requests and buffers into lists, the rest to the pool
    processCompletion  filled buffers to the ring, the rest and the request back
    dispatchReceived   drops the processed entries

The entries a completion appends are `completionEntries`; the buffers in them
are the ones the message was scattered over (`filterMap_data_completionEntries`).
-/

namespace Ibdxnet.Msgrc

open Ibdxnet.Con Sys Dx

/-! ## Entries of a completion -/

/-- The entries of `n` received bytes over these buffers. -/
def dataEntries (cfg : RecvConfig) : ImmediateData → Nat → List IbMemReg → List Entry
  | _, _, [] => []
  | immData, n, b :: bs =>
    RecvDispatcher.dataEntry cfg immData b (min n (cfg.getSizeBuffer b)) ::
      if n ≤ cfg.getSizeBuffer b then []
      else dataEntries cfg { immData with flowControlData := 0 } (n - cfg.getSizeBuffer b) bs

/-- The entries `__ProcessCompletions` appends for one completion. -/
def completionEntries (cfg : RecvConfig) (wc : IbvRecvWc) (refsMemReg : List IbMemReg) :
    List Entry :=
  if wc.byteLen = 0 then [RecvDispatcher.fcEntry wc.immData]
  else dataEntries cfg wc.immData wc.byteLen refsMemReg

section
variable (cfg : RecvConfig)

theorem length_dataEntries_le (immData : ImmediateData) (n : Nat) (bs : List IbMemReg) :
    (dataEntries cfg immData n bs).length ≤ bs.length := by
  induction bs generalizing immData n with
  | nil => exact Nat.le_refl _
  | cons b bs ih =>
    rw [dataEntries, List.length_cons, List.length_cons]
    split
    · simp
    · exact Nat.succ_le_succ (ih _ _)

theorem filledBuffers_zero (bs : List IbMemReg) : filledBuffers cfg bs 0 = [] := by
  cases bs <;> rfl

theorem filledBuffers_cons {n : Nat} (hn : 0 < n) (b : IbMemReg) (bs : List IbMemReg) :
    filledBuffers cfg (b :: bs) n = b :: filledBuffers cfg bs (n - cfg.getSizeBuffer b) :=
  if_neg (Nat.ne_of_gt hn)

theorem filterMap_data_dataEntries (immData : ImmediateData) {n : Nat} (hn : 0 < n)
    (bs : List IbMemReg) :
    (dataEntries cfg immData n bs).filterMap Entry.data = filledBuffers cfg bs n := by
  induction bs generalizing immData n with
  | nil => rfl
  | cons b bs ih =>
    have hhead : (RecvDispatcher.dataEntry cfg immData b (min n (cfg.getSizeBuffer b))).data =
        some b := rfl
    rw [dataEntries, filledBuffers_cons cfg hn, List.filterMap_cons_some hhead]
    congr 1
    split
    · have hzero : n - cfg.getSizeBuffer b = 0 := by omega
      rw [hzero, filledBuffers_zero]
      rfl
    · exact ih _ (by omega)

/-- The entries hold exactly the buffers that got data. -/
theorem filterMap_data_completionEntries (wc : IbvRecvWc) (bs : List IbMemReg) :
    (completionEntries cfg wc bs).filterMap Entry.data = filledBuffers cfg bs wc.byteLen := by
  rw [completionEntries]
  split
  · next hzero =>
    rw [hzero, filledBuffers_zero]
    rfl
  · exact filterMap_data_dataEntries cfg _ (by omega) bs

theorem filledBuffers_prefix_of (bs : List IbMemReg) (n : Nat) : filledBuffers cfg bs n <+: bs := by
  induction bs generalizing n with
  | nil => exact List.prefix_rfl
  | cons b bs ih =>
    rw [filledBuffers]
    split
    · exact List.nil_prefix
    · exact List.prefix_cons_inj b |>.mpr (ih _)

theorem length_filledBuffers_dataEntries (immData : ImmediateData) {n : Nat} (hn : 0 < n)
    (bs : List IbMemReg) :
    (dataEntries cfg immData n bs).length = (filledBuffers cfg bs n).length := by
  induction bs generalizing immData n with
  | nil => rfl
  | cons b bs ih =>
    rw [dataEntries, filledBuffers_cons cfg hn, List.length_cons, List.length_cons]
    congr 1
    split
    · have hzero : n - cfg.getSizeBuffer b = 0 := by omega
      rw [hzero, filledBuffers_zero]
      rfl
    · exact ih _ (by omega)

/-- The buffers of a completed work request that got no data. -/
def unusedBuffers (wc : IbvRecvWc) (refsMemReg : List IbMemReg) : List IbMemReg :=
  refsMemReg.drop (filledBuffers cfg refsMemReg wc.byteLen).length

theorem filledBuffers_append_unusedBuffers (wc : IbvRecvWc) (bs : List IbMemReg) :
    filledBuffers cfg bs wc.byteLen ++ unusedBuffers cfg wc bs = bs := by
  obtain ⟨rest, hrest⟩ := filledBuffers_prefix_of cfg bs wc.byteLen
  have hdrop : unusedBuffers cfg wc bs = rest := by
    rw [unusedBuffers]
    nth_rewrite 2 [← hrest]
    rw [List.drop_left]
  rw [hdrop, hrest]

theorem length_completionEntries_le (wc : IbvRecvWc) (bs : List IbMemReg) :
    (completionEntries cfg wc bs).length ≤ max 1 bs.length := by
  rw [completionEntries]
  split
  · exact Nat.le_max_left 1 _
  · exact Nat.le_trans (length_dataEntries_le cfg _ _ bs) (Nat.le_max_right 1 _)

end

/-! ## The dispatcher -/

/-- No sum of a position in the pool and a number of buffers leaves the range of
its arithmetic. -/
def RecvConfig.PoolExact (cfg : RecvConfig) : Prop :=
  cfg.arith.ExactBelow (2 * (cfg.bufferPoolSize + 1))

theorem RecvConfig.poolExact_of_lt {cfg : RecvConfig} (h : cfg.arith = .uint32)
    (hsize : cfg.bufferPoolSize < 2 ^ 31) : cfg.PoolExact := by
  rw [PoolExact, h]
  exact Arith.uint32_exactBelow.mono (by omega)

namespace RecvDispatcher

/-- Pools and ring buffer are well formed and hold these lists, and the pool's
arithmetic is exact. -/
structure Holds (cfg : RecvConfig) (d : RecvDispatcher) (pool : List IbMemReg) (es : List Entry)
    (wrs : List Nat) : Prop where
  pool : d.recvBufferPool.Holds pool
  poolSize : d.recvBufferPool.bufferPoolSize = cfg.bufferPoolSize
  poolExact : cfg.PoolExact
  ring : d.ringBuffer.Holds es
  ringSize : d.ringBuffer.size = cfg.ibSRQSize * cfg.maxSGEs
  wrPool : d.recvWRPool.Holds wrs
  wrPoolSize : d.recvWRPool.poolSize = cfg.ibSRQSize * 2

/-- Ring buffer and work request pool are well formed and hold these lists, the
buffer pool may be in any state. -/
structure Fits (cfg : RecvConfig) (d : RecvDispatcher) (es : List Entry) (wrs : List Nat) :
    Prop where
  ring : d.ringBuffer.Holds es
  ringSize : d.ringBuffer.size = cfg.ibSRQSize * cfg.maxSGEs
  wrPool : d.recvWRPool.Holds wrs
  wrPoolSize : d.recvWRPool.poolSize = cfg.ibSRQSize * 2

section
variable {cfg : RecvConfig} {d : RecvDispatcher} {pool : List IbMemReg} {es : List Entry}
  {wrs : List Nat}

theorem init_fits (cfg : RecvConfig) :
    (init cfg).Fits cfg [] (List.range (cfg.ibSRQSize * 2)) where
  ring := IncomingRingBuffer.init_holds _
  ringSize := rfl
  wrPool := RecvWorkRequestPool.init_holds _
  wrPoolSize := rfl

theorem init_holds (cfg : RecvConfig) (hexact : cfg.PoolExact) :
    (init cfg).Holds cfg (List.range cfg.bufferPoolSize) [] (List.range (cfg.ibSRQSize * 2)) where
  pool := RecvBufferPool.init_holds _
  poolSize := rfl
  poolExact := hexact
  ring := IncomingRingBuffer.init_holds _
  ringSize := rfl
  wrPool := RecvWorkRequestPool.init_holds _
  wrPoolSize := rfl

/-- Only the fields `Holds` is about matter. -/
theorem Holds.of_eq {d' : RecvDispatcher} (h : d.Holds cfg pool es wrs)
    (hpool : d'.recvBufferPool = d.recvBufferPool) (hring : d'.ringBuffer = d.ringBuffer)
    (hwrPool : d'.recvWRPool = d.recvWRPool) : d'.Holds cfg pool es wrs where
  pool := hpool ▸ h.pool
  poolSize := hpool ▸ h.poolSize
  poolExact := h.poolExact
  ring := hring ▸ h.ring
  ringSize := hring ▸ h.ringSize
  wrPool := hwrPool ▸ h.wrPool
  wrPoolSize := hwrPool ▸ h.wrPoolSize

theorem Holds.fits (h : d.Holds cfg pool es wrs) : d.Fits cfg es wrs :=
  ⟨h.ring, h.ringSize, h.wrPool, h.wrPoolSize⟩

theorem Fits.holds (h : d.Fits cfg es wrs) (hpool : d.recvBufferPool.Holds pool)
    (hsize : d.recvBufferPool.bufferPoolSize = cfg.bufferPoolSize) (hexact : cfg.PoolExact) :
    d.Holds cfg pool es wrs :=
  ⟨hpool, hsize, hexact, h.ring, h.ringSize, h.wrPool, h.wrPoolSize⟩

theorem Fits.of_eq {d' : RecvDispatcher} (h : d.Fits cfg es wrs)
    (hring : d'.ringBuffer = d.ringBuffer) (hwrPool : d'.recvWRPool = d.recvWRPool) :
    d'.Fits cfg es wrs where
  ring := hring ▸ h.ring
  ringSize := hring ▸ h.ringSize
  wrPool := hwrPool ▸ h.wrPool
  wrPoolSize := hwrPool ▸ h.wrPoolSize

/-! ### The parts -/

/-- Returning no buffers is doing nothing. -/
theorem run_returnUnused (bs : List IbMemReg) :
    (returnUnused cfg bs).run d =
      (onBufferPool (RecvBufferPool.returnBuffers cfg.arith bs)).run d := by
  rw [returnUnused]
  split
  · rfl
  · next hbs =>
    have hnil : bs = [] := List.length_eq_zero_iff.mp (by omega)
    subst hnil
    rfl

theorem Holds.bufferPoolSizeGapped_eq (h : d.Holds cfg pool es wrs) :
    d.recvBufferPool.bufferPoolSizeGapped = cfg.bufferPoolSize + 1 :=
  congrArg (· + 1) h.poolSize

theorem Holds.run_returnBuffers (h : d.Holds cfg pool es wrs) (bs : List IbMemReg)
    (hlen : pool.length + bs.length ≤ cfg.bufferPoolSize) :
    ∃ p, (RecvBufferPool.returnBuffers cfg.arith bs).run d.recvBufferPool = .ok () p ∧
      p.Holds (pool ++ bs) ∧ p.bufferPoolSize = cfg.bufferPoolSize := by
  have hroom : pool.length + bs.length ≤ d.recvBufferPool.bufferPoolSize := by
    rw [h.poolSize]
    exact hlen
  have hgapped := h.bufferPoolSizeGapped_eq
  have hback := h.pool.backRes_lt
  exact ⟨_, h.pool.run_returnBuffers hroom h.poolExact (by omega) (by omega),
    h.pool.afterReturn hroom, h.poolSize⟩

theorem Fits.run_pushWR (h : d.Fits cfg es wrs) (hlen : wrs.length < cfg.ibSRQSize * 2)
    (id : Nat) :
    ∃ q, (onWRPool (RecvWorkRequestPool.push id)).run d = .ok () { d with recvWRPool := q } ∧
      Fits cfg { d with recvWRPool := q } es (wrs ++ [id]) := by
  obtain ⟨q, hrun, hq, hsize⟩ := h.wrPool.run_push (by rw [h.wrPoolSize]; exact hlen) id
  refine ⟨q, ?_, h.ring, h.ringSize, hq, hsize.trans h.wrPoolSize⟩
  rw [onWRPool, Exec.run_zoom, hrun]

theorem Fits.run_pushEntry (h : d.Fits cfg es wrs)
    (hlen : es.length < cfg.ibSRQSize * cfg.maxSGEs) (e : Entry) :
    ∃ r, (onRingBuffer (IncomingRingBuffer.pushEntry e)).run d =
        .ok () { d with ringBuffer := r } ∧
      Fits cfg { d with ringBuffer := r } (es ++ [e]) wrs := by
  obtain ⟨r, hrun, hr, hsize⟩ := h.ring.run_pushEntry (by rw [h.ringSize]; exact hlen) e
  refine ⟨r, ?_, hr, hsize.trans h.ringSize, h.wrPool, h.wrPoolSize⟩
  rw [onRingBuffer, Exec.run_zoom, hrun]

/-! ### Processing a completion -/

theorem Fits.run_processBuffers (h : d.Fits cfg es wrs) (immData : ImmediateData) (n : Nat)
    (bs : List IbMemReg) (hlen : es.length + bs.length ≤ cfg.ibSRQSize * cfg.maxSGEs) :
    ∃ r, (processBuffers cfg immData n bs).run d =
        .ok (dataEntries cfg immData n bs).length { d with ringBuffer := r } ∧
      Fits cfg { d with ringBuffer := r } (es ++ dataEntries cfg immData n bs) wrs := by
  induction bs generalizing d es immData n with
  | nil => exact ⟨d.ringBuffer, rfl, by simpa [dataEntries] using h⟩
  | cons b bs ih =>
    rw [List.length_cons] at hlen
    obtain ⟨r, hrun, hr⟩ := h.run_pushEntry (by omega)
      (dataEntry cfg immData b (min n (cfg.getSizeBuffer b)))
    rcases Nat.lt_or_ge (cfg.getSizeBuffer b) n with hlt | hle
    · obtain ⟨r', hrun', hr'⟩ := ih hr { immData with flowControlData := 0 }
        (n - cfg.getSizeBuffer b) (by rw [List.length_append, List.length_singleton]; omega)
      refine ⟨r', ?_, ?_⟩
      · rw [Nat.min_eq_right (by omega)] at hrun
        simp only [processBuffers, if_pos (show n ≥ cfg.getSizeBuffer b by omega),
          EStateM.run_bind, hrun, if_neg (show n - cfg.getSizeBuffer b ≠ 0 by omega), hrun',
          EStateM.run_pure]
        rw [dataEntries, if_neg (by omega), List.length_cons]
      · rw [dataEntries, if_neg (by omega)]
        simpa using hr'
    · refine ⟨r, ?_, by rw [dataEntries, if_pos hle]; exact hr⟩
      have hpair : (if n ≥ cfg.getSizeBuffer b then
          (cfg.getSizeBuffer b, n - cfg.getSizeBuffer b) else (n, 0)) =
          (min n (cfg.getSizeBuffer b), 0) := by
        split <;> simp only [Prod.mk.injEq, and_true] <;> omega
      simp only [processBuffers, hpair, EStateM.run_bind, hrun, if_true, EStateM.run_pure]
      rw [dataEntries, if_pos hle]
      rfl

theorem run_checkStatus {wc : IbvRecvWc} (hstatus : wc.status = .success) :
    (checkStatus wc).run d = .ok () d := by
  simp only [checkStatus, hstatus, EStateM.run_bind, EStateM.run_get, EStateM.run_pure]

theorem unusedBuffers_of_empty {wc : IbvRecvWc} (hzero : wc.byteLen = 0) (bs : List IbMemReg) :
    unusedBuffers cfg wc bs = bs := by
  rw [unusedBuffers, hzero, filledBuffers_zero]
  rfl

theorem drop_length_dataEntries {wc : IbvRecvWc} (hne : wc.byteLen ≠ 0) (bs : List IbMemReg) :
    bs.drop (dataEntries cfg wc.immData wc.byteLen bs).length = unusedBuffers cfg wc bs := by
  rw [unusedBuffers, length_filledBuffers_dataEntries cfg wc.immData (Nat.pos_of_ne_zero hne)]

section
variable {wc : IbvRecvWc} {p : RecvBufferPool} (h : d.Fits cfg es wrs)
  (hstatus : wc.status = .success)
  (hring : es.length + max 1 (d.workRequests wc.wrId).sgls.refsMemReg.length ≤
    cfg.ibSRQSize * cfg.maxSGEs)
  (hwrs : wrs.length < cfg.ibSRQSize * 2)

include h hstatus hring hwrs

/-- A successful completion goes to the ring buffer, what it did not use goes back. -/
theorem Fits.run_processCompletion (hfc : wc.byteLen = 0 → wc.immData.flowControlData ≠ 0)
    (hreturn : (RecvBufferPool.returnBuffers cfg.arith
      (unusedBuffers cfg wc (d.workRequests wc.wrId).sgls.refsMemReg)).run d.recvBufferPool =
        .ok () p) :
    ∃ r q, (processCompletion cfg wc).run d =
        .ok () { d with
          recvBufferPool := p, ringBuffer := r, recvWRPool := q, firstWc := false } ∧
      Fits cfg { d with
          recvBufferPool := p, ringBuffer := r, recvWRPool := q, firstWc := false }
        (es ++ completionEntries cfg wc (d.workRequests wc.wrId).sgls.refsMemReg)
        (wrs ++ [wc.wrId]) := by
  have h₀ : Fits cfg { d with recvBufferPool := p, firstWc := false } es wrs := h.of_eq rfl rfl
  by_cases hzero : wc.byteLen = 0
  · rw [unusedBuffers_of_empty hzero] at hreturn
    obtain ⟨q, hrun₁, h₁⟩ := h₀.run_pushWR hwrs wc.wrId
    obtain ⟨r, hrun₂, h₂⟩ := h₁.run_pushEntry (by omega) (fcEntry wc.immData)
    refine ⟨r, q, ?_, ?_⟩
    · simp only [processCompletion, EStateM.run_bind, run_checkStatus hstatus, EStateM.run_modify,
        EStateM.run_get, if_pos hzero, onBufferPool, Exec.run_zoom, hreturn, hrun₁,
        if_neg (hfc hzero), hrun₂]
    · rw [completionEntries, if_pos hzero]
      exact h₂
  · have h₀' : Fits cfg { d with firstWc := false } es wrs := h.of_eq rfl rfl
    obtain ⟨r, hrun₁, h₁⟩ := h₀'.run_processBuffers wc.immData wc.byteLen
      (d.workRequests wc.wrId).sgls.refsMemReg (by omega)
    have h₁' : Fits cfg { d with recvBufferPool := p, ringBuffer := r, firstWc := false }
        (es ++ dataEntries cfg wc.immData wc.byteLen (d.workRequests wc.wrId).sgls.refsMemReg)
        wrs := h₁.of_eq rfl rfl
    obtain ⟨q, hrun₂, h₂⟩ := h₁'.run_pushWR hwrs wc.wrId
    refine ⟨r, q, ?_, ?_⟩
    · simp only [processCompletion, EStateM.run_bind, run_checkStatus hstatus, EStateM.run_modify,
        EStateM.run_get, if_neg hzero, hrun₁, drop_length_dataEntries hzero, run_returnUnused,
        onBufferPool, Exec.run_zoom, hreturn, hrun₂]
    · rw [completionEntries, if_neg hzero]
      exact h₂

omit hwrs in
/-- A completion whose buffers the pool does not take back. -/
theorem Fits.run_processCompletion_error {e : Exception}
    (hreturn : (RecvBufferPool.returnBuffers cfg.arith
      (unusedBuffers cfg wc (d.workRequests wc.wrId).sgls.refsMemReg)).run d.recvBufferPool =
        .error e p) :
    ∃ r, (processCompletion cfg wc).run d =
        .error e { d with recvBufferPool := p, ringBuffer := r, firstWc := false } ∧
      r.usedEntries ≤ cfg.ibSRQSize * cfg.maxSGEs := by
  by_cases hzero : wc.byteLen = 0
  · rw [unusedBuffers_of_empty hzero] at hreturn
    refine ⟨d.ringBuffer, ?_, ?_⟩
    · simp only [processCompletion, EStateM.run_bind, run_checkStatus hstatus, EStateM.run_modify,
        EStateM.run_get, if_pos hzero, onBufferPool, Exec.run_zoom, hreturn]
    · rw [h.ring.usedEntries_eq]
      omega
  · have h₀ : Fits cfg { d with firstWc := false } es wrs := h.of_eq rfl rfl
    obtain ⟨r, hrun₁, h₁⟩ := h₀.run_processBuffers wc.immData wc.byteLen
      (d.workRequests wc.wrId).sgls.refsMemReg (by omega)
    refine ⟨r, ?_, ?_⟩
    · simp only [processCompletion, EStateM.run_bind, run_checkStatus hstatus, EStateM.run_modify,
        EStateM.run_get, if_neg hzero, hrun₁, drop_length_dataEntries hzero, run_returnUnused,
        onBufferPool, Exec.run_zoom, hreturn]
    · have hle := h₁.ring.length_le
      rw [h₁.ringSize] at hle
      exact h₁.ring.usedEntries_eq ▸ hle

omit hring in
/-- The sanity check on a completion without data. -/
theorem Fits.run_processCompletion_empty (hzero : wc.byteLen = 0)
    (hfc : wc.immData.flowControlData = 0)
    (hreturn : (RecvBufferPool.returnBuffers cfg.arith
      (unusedBuffers cfg wc (d.workRequests wc.wrId).sgls.refsMemReg)).run d.recvBufferPool =
        .ok () p) :
    ∃ q, (processCompletion cfg wc).run d =
        .error (.illegalState "Zero length data received but no flow control data")
          { d with recvBufferPool := p, recvWRPool := q, firstWc := false } := by
  rw [unusedBuffers_of_empty hzero] at hreturn
  have h₀ : Fits cfg { d with recvBufferPool := p, firstWc := false } es wrs := h.of_eq rfl rfl
  obtain ⟨q, hrun₁, h₁⟩ := h₀.run_pushWR hwrs wc.wrId
  refine ⟨q, ?_⟩
  simp only [processCompletion, EStateM.run_bind, run_checkStatus hstatus, EStateM.run_modify,
    EStateM.run_get, if_pos hzero, onBufferPool, Exec.run_zoom, hreturn, hrun₁, if_pos hfc,
    Exec.run_throw]

end

/-! ### Refilling -/

theorem run_addBuffers (id : Nat) (bs : List IbMemReg)
    (hlen : (d.workRequests id).sgls.refsMemReg.length + bs.length ≤
      (d.workRequests id).sgls.maxSges) :
    (addBuffers id bs).run d = .ok () (d.modifyWR id fun wr =>
      { wr with sgls := { wr.sgls with refsMemReg := wr.sgls.refsMemReg ++ bs } }) := by
  induction bs generalizing d with
  | nil => simp [addBuffers, modifyWR]
  | cons b bs ih =>
    rw [List.length_cons] at hlen
    have hadd : (addBuffer id b).run d = .ok () (d.modifyWR id fun wr =>
        { wr with sgls := { wr.sgls with refsMemReg := wr.sgls.refsMemReg ++ [b] } }) := by
      have hroom : ¬ (d.workRequests id).sgls.numUsedElems ≥ (d.workRequests id).sgls.maxSges := by
        rw [ScatterGatherList.numUsedElems]
        omega
      simp only [addBuffer, Exec.run_zoom, ScatterGatherList.add, EStateM.run_bind, EStateM.run_get,
        if_neg hroom, EStateM.run_set]
      rfl
    have hrest := ih (d := d.modifyWR id fun wr =>
      { wr with sgls := { wr.sgls with refsMemReg := wr.sgls.refsMemReg ++ [b] } }) (by
        simp only [modifyWR, Function.update_self, List.length_append, List.length_singleton]
        omega)
    simp only [addBuffers, EStateM.run_bind, hadd]
    rw [hrest]
    simp [modifyWR]

/-- `recvWRs` are ready to be posted with the buffers `bufs`, in this order; the
other objects are as before. -/
structure Prepared (cfg : RecvConfig) (before after : Nat → RecvWorkRequest) (recvWRs : List Nat)
    (bufs : List IbMemReg) : Prop where
  other : ∀ id, id ∉ recvWRs → after id = before id
  maxSges : ∀ id, (after id).sgls.maxSges = (before id).sgls.maxSges
  recvWr : ∀ id ∈ recvWRs, (after id).recvWr = ⟨id, none, (after id).sgls.refsMemReg⟩
  full : ∀ id ∈ recvWRs, (after id).sgls.refsMemReg.length = cfg.maxSGEs
  buffers : (recvWRs.flatMap fun id => (after id).sgls.refsMemReg) = bufs

theorem Prepared.nil (before : Nat → RecvWorkRequest) : Prepared cfg before before [] [] where
  other _ _ := rfl
  maxSges _ := rfl
  recvWr _ h := absurd h List.not_mem_nil
  full _ h := absurd h List.not_mem_nil
  buffers := rfl

/-- The object `__Refill` makes of a popped one. -/
def refillWR (recvWR : Nat) (bs : List IbMemReg) (wr : RecvWorkRequest) : RecvWorkRequest :=
  { wr with sgls := { wr.sgls with refsMemReg := bs } }.prepare recvWR

theorem Prepared.cons {before after : Nat → RecvWorkRequest} {x : Nat} {xs : List Nat}
    {bs bufs : List IbMemReg} (hx : x ∉ xs) (hbs : bs.length = cfg.maxSGEs)
    (h : Prepared cfg (Function.update before x (refillWR x bs (before x))) after xs bufs) :
    Prepared cfg before after (x :: xs) (bs ++ bufs) := by
  have hself : after x = refillWR x bs (before x) := by rw [h.other x hx, Function.update_self]
  refine ⟨fun id hid => ?_, fun id => ?_, fun id hid => ?_, fun id hid => ?_, ?_⟩
  · rw [List.mem_cons, not_or] at hid
    rw [h.other id hid.2, Function.update_of_ne hid.1]
  · rw [h.maxSges id]
    by_cases hid : id = x
    · subst hid
      rw [Function.update_self]
      rfl
    · rw [Function.update_of_ne hid]
  · rcases List.mem_cons.mp hid with rfl | hid
    · rw [hself]
      rfl
    · exact h.recvWr id hid
  · rcases List.mem_cons.mp hid with rfl | hid
    · rw [hself]
      exact hbs
    · exact h.full id hid
  · rw [List.flatMap_cons, h.buffers, hself]
    rfl

theorem Fits.run_prepareWorkRequests (h : d.Fits cfg es wrs) (hnodup : wrs.Nodup)
    (hmax : ∀ id, (d.workRequests id).sgls.maxSges = cfg.maxSGEs) {n : Nat} (hn : n ≤ wrs.length)
    (bufs : List IbMemReg) :
    ∃ k q f, k ≤ n ∧ k * cfg.maxSGEs ≤ bufs.length ∧
      (prepareWorkRequests cfg n bufs).run d = .ok (wrs.take k, bufs.drop (k * cfg.maxSGEs))
        { d with recvWRPool := q, workRequests := f } ∧
      Fits cfg { d with recvWRPool := q, workRequests := f } es (wrs.drop k) ∧
      Prepared cfg d.workRequests f (wrs.take k) (bufs.take (k * cfg.maxSGEs)) := by
  induction n generalizing d wrs bufs with
  | zero =>
    refine ⟨0, d.recvWRPool, d.workRequests, Nat.le_refl _, ?_, ?_, h, ?_⟩
    · simp
    · simp [prepareWorkRequests]
    · simpa using Prepared.nil d.workRequests
  | succ n ih =>
    rcases Nat.lt_or_ge bufs.length cfg.maxSGEs with hlt | hge
    · refine ⟨0, d.recvWRPool, d.workRequests, Nat.zero_le _, ?_, ?_, h, ?_⟩
      · simp
      · simp only [prepareWorkRequests, if_pos (show cfg.maxSGEs > bufs.length from hlt)]
        simp
      · simpa using Prepared.nil d.workRequests
    cases wrs with
    | nil => simp at hn
    | cons x xs =>
      obtain ⟨q, hpop, hq, hsize⟩ := h.wrPool.run_pop
      have hlen : (bufs.take cfg.maxSGEs).length = cfg.maxSGEs := List.length_take_of_le hge
      -- the object just popped, reset, filled and prepared
      let wr := refillWR x (bufs.take cfg.maxSGEs) (d.workRequests x)
      let d₁ : RecvDispatcher :=
        { d with recvWRPool := q, workRequests := Function.update d.workRequests x wr }
      have h₁ : d₁.Fits cfg es xs := ⟨h.ring, h.ringSize, hq, hsize.trans h.wrPoolSize⟩
      have hmax₁ : ∀ id, (d₁.workRequests id).sgls.maxSges = cfg.maxSGEs := by
        intro id
        change (Function.update d.workRequests x wr id).sgls.maxSges = cfg.maxSGEs
        rcases eq_or_ne id x with rfl | hid
        · rw [Function.update_self]
          exact hmax id
        · rw [Function.update_of_ne hid]
          exact hmax id
      obtain ⟨k, q', f, hk, hkbufs, hrun, hholds, hprep⟩ :=
        ih h₁ (List.nodup_cons.mp hnodup).2 hmax₁ (by simpa using hn) (bufs.drop cfg.maxSGEs)
      rw [List.length_drop] at hkbufs
      have hsucc : (k + 1) * cfg.maxSGEs = cfg.maxSGEs + k * cfg.maxSGEs := by
        rw [Nat.succ_mul, Nat.add_comm]
      refine ⟨k + 1, q', f, by omega, by omega, ?_, hholds, ?_⟩
      · have hpop' : (onWRPool RecvWorkRequestPool.pop).run d =
            .ok x { d with recvWRPool := q } := by rw [onWRPool, Exec.run_zoom, hpop]
        have hadd := run_addBuffers (d := modifyWR { d with recvWRPool := q } x fun wr =>
          { wr with sgls := wr.sgls.reset }) x (bufs.take cfg.maxSGEs) (by
            simp only [modifyWR, Function.update_self, ScatterGatherList.reset, hmax x, hlen]
            simp)
        have hobject : (modifyWR (modifyWR (modifyWR { d with recvWRPool := q } x fun wr =>
            { wr with sgls := wr.sgls.reset }) x fun wr =>
            { wr with sgls := { wr.sgls with
              refsMemReg := wr.sgls.refsMemReg ++ bufs.take cfg.maxSGEs } })
            x (RecvWorkRequest.prepare x)) = d₁ := by
          simp [modifyWR, d₁, wr, refillWR, ScatterGatherList.reset]
        simp only [prepareWorkRequests, if_neg (show ¬ cfg.maxSGEs > bufs.length by omega),
          EStateM.run_bind, hpop', EStateM.run_modify, hadd, hobject, hrun, EStateM.run_pure]
        rw [List.take_succ_cons, List.drop_drop, hsucc]
      · rw [List.take_succ_cons, hsucc, List.take_add]
        have hx : x ∉ xs.take k := fun hmem =>
          (List.nodup_cons.mp hnodup).1 (List.mem_of_mem_take hmem)
        exact Prepared.cons hx hlen hprep

theorem modifyWR_chain_of_ne {id id' : Nat} (hid : id' ≠ id) (next : Nat) :
    (d.modifyWR id (RecvWorkRequest.chain next)).workRequests id' = d.workRequests id' :=
  Function.update_of_ne hid _ _

/-- Chaining changes nothing but `next` pointers of the chained requests. -/
theorem chainWorkRequests_eq (recvWRs : List Nat) :
    ∃ f, d.chainWorkRequests recvWRs = { d with workRequests := f } ∧
      (∀ id, (f id).sgls = (d.workRequests id).sgls ∧
        (f id).recvWr.wrId = (d.workRequests id).recvWr.wrId ∧
        (f id).recvWr.sgList = (d.workRequests id).recvWr.sgList) ∧
      ∀ id, id ∉ recvWRs → f id = d.workRequests id := by
  induction d, recvWRs using chainWorkRequests.induct with
  | case1 d => exact ⟨d.workRequests, rfl, fun _ => ⟨rfl, rfl, rfl⟩, fun _ _ => rfl⟩
  | case2 d id => exact ⟨d.workRequests, rfl, fun _ => ⟨rfl, rfl, rfl⟩, fun _ _ => rfl⟩
  | case3 d id id' ids ih =>
    obtain ⟨f, hf, hsame, hother⟩ := ih
    refine ⟨f, by rw [chainWorkRequests, hf]; rfl, fun i => ?_, fun i hi => ?_⟩
    · obtain ⟨hsgls, hwrId, hsgList⟩ := hsame i
      rw [hsgls, hwrId, hsgList]
      rcases eq_or_ne i id with rfl | hne
      · simp [modifyWR, RecvWorkRequest.chain]
      · rw [modifyWR_chain_of_ne hne]
        exact ⟨rfl, rfl, rfl⟩
    · rw [List.mem_cons, not_or] at hi
      rw [hother i hi.2, modifyWR_chain_of_ne hi.1]

/-- `ibv_post_srq_recv` finds all the chained requests, in order. -/
theorem workRequestList_chainWorkRequests {id : Nat} {ids : List Nat} {n : Nat}
    (hnodup : (id :: ids).Nodup) (hn : (id :: ids).length ≤ n)
    (hwr : ∀ i ∈ id :: ids, (d.workRequests i).recvWr.wrId = i ∧
      (d.workRequests i).recvWr.next = none) :
    (d.chainWorkRequests (id :: ids)).workRequestList n id = id :: ids := by
  induction ids generalizing d id n with
  | nil =>
    obtain ⟨n, rfl⟩ : ∃ m, n = m + 1 := ⟨n - 1, by simp at hn; omega⟩
    obtain ⟨hwrId, hnext⟩ := hwr id List.mem_cons_self
    simp only [chainWorkRequests, workRequestList, hwrId, hnext]
  | cons id' ids ih =>
    obtain ⟨n, rfl⟩ : ∃ m, n = m + 1 := ⟨n - 1, by simp at hn; omega⟩
    obtain ⟨hid, hnodup'⟩ := List.nodup_cons.mp hnodup
    have hrest := ih (d := d.modifyWR id (RecvWorkRequest.chain id')) (n := n) hnodup'
      (by simpa using hn) (by
        intro i hi
        have hne : i ≠ id := by rintro rfl; exact hid hi
        rw [modifyWR_chain_of_ne hne]
        exact hwr i (List.mem_cons_of_mem _ hi))
    -- the first request points to the second and is not chained again
    have hfirst : ((d.chainWorkRequests (id :: id' :: ids)).workRequests id).recvWr =
        { (d.workRequests id).recvWr with next := some id' } := by
      obtain ⟨f, hf, -, hother⟩ :=
        chainWorkRequests_eq (d := d.modifyWR id (RecvWorkRequest.chain id')) (id' :: ids)
      rw [chainWorkRequests, hf]
      change (f id).recvWr = _
      rw [hother id hid, modifyWR]
      simp [RecvWorkRequest.chain]
    rw [workRequestList, hfirst]
    change (d.workRequests id).recvWr.wrId ::
      (d.chainWorkRequests (id :: id' :: ids)).workRequestList n id' = _
    rw [(hwr id List.mem_cons_self).1]
    exact congrArg (id :: ·) hrest

/-- `__Refill` up to the post: work requests with full lists, what is left to the pool. -/
theorem Fits.run_refillPrepare (h : d.Fits cfg es wrs) (hnodup : wrs.Nodup)
    (hmax : ∀ id, (d.workRequests id).sgls.maxSges = cfg.maxSGEs) {n : Nat} (hn : n ≤ wrs.length)
    (bufs : List IbMemReg) :
    ∃ k q f, k ≤ n ∧ k * cfg.maxSGEs ≤ bufs.length ∧
      (∀ e p, (RecvBufferPool.returnBuffers cfg.arith (bufs.drop (k * cfg.maxSGEs))).run
          d.recvBufferPool = .error e p →
        ∃ f', (refillPrepare cfg n bufs).run d =
          .error e { d with recvBufferPool := p, recvWRPool := q, workRequests := f' }) ∧
      (∀ p, (RecvBufferPool.returnBuffers cfg.arith (bufs.drop (k * cfg.maxSGEs))).run
          d.recvBufferPool = .ok () p →
        (refillPrepare cfg n bufs).run d = .ok (wrs.take k)
          { d with recvBufferPool := p, recvWRPool := q, workRequests := f }) ∧
      Fits cfg { d with recvWRPool := q, workRequests := f } es (wrs.drop k) ∧
      (∀ id, id ∉ wrs.take k → f id = d.workRequests id) ∧
      (∀ id, (f id).sgls.maxSges = cfg.maxSGEs) ∧
      (∀ id ∈ wrs.take k, (f id).recvWr.sgList = (f id).sgls.refsMemReg ∧
        (f id).sgls.refsMemReg.length = cfg.maxSGEs) ∧
      ((wrs.take k).flatMap fun id => (f id).sgls.refsMemReg) = bufs.take (k * cfg.maxSGEs) ∧
      ∀ p id ids, wrs.take k = id :: ids →
        workRequestList { d with recvBufferPool := p, recvWRPool := q, workRequests := f }
          q.poolSize id = id :: ids := by
  obtain ⟨k, q, f₀, hk, hkbufs, hrun₁, h₁, hprep⟩ := h.run_prepareWorkRequests hnodup hmax hn bufs
  -- chaining does not look at the buffer pool
  have hchainPool : ∀ (p : RecvBufferPool) (d : RecvDispatcher) (ids : List Nat),
      { d with recvBufferPool := p }.chainWorkRequests ids =
        { d.chainWorkRequests ids with recvBufferPool := p } := by
    intro p d ids
    induction d, ids using chainWorkRequests.induct with
    | case1 d => rfl
    | case2 d id => rfl
    | case3 d id id' ids ih =>
      rw [chainWorkRequests, chainWorkRequests, ← ih]
      rfl
  have hlistPool : ∀ (p : RecvBufferPool) (d : RecvDispatcher) (m id : Nat),
      { d with recvBufferPool := p }.workRequestList m id = d.workRequestList m id := by
    intro p d m
    induction m with
    | zero => exact fun _ => rfl
    | succ m ih =>
      intro id
      rw [workRequestList, workRequestList]
      simp only [ih]
  obtain ⟨f, hchain, hsame, hother⟩ := chainWorkRequests_eq (d :=
    { d with recvWRPool := q, workRequests := f₀ }) (wrs.take k)
  have hnodupk : (wrs.take k).Nodup := hnodup.sublist (List.take_sublist k wrs)
  refine ⟨k, q, f, hk, hkbufs, fun e p hreturn => ⟨f₀, ?_⟩, fun p hreturn => ?_,
    h₁.of_eq rfl rfl, ?_, ?_, ?_, ?_, ?_⟩
  · simp only [refillPrepare, EStateM.run_bind, hrun₁, run_returnUnused, onBufferPool,
      Exec.run_zoom, hreturn]
  · simp only [refillPrepare, EStateM.run_bind, hrun₁, run_returnUnused, onBufferPool,
      Exec.run_zoom, hreturn, EStateM.run_modify, EStateM.run_pure]
    rw [hchainPool p { d with recvWRPool := q, workRequests := f₀ }, hchain]
  · intro id hid
    rw [hother id hid]
    exact hprep.other id hid
  · intro id
    rw [(hsame id).1]
    exact (hprep.maxSges id).trans (hmax id)
  · intro id hid
    obtain ⟨hsgls, -, hsgList⟩ := hsame id
    rw [hsgls, hsgList]
    exact ⟨congrArg IbvRecvWr.sgList (hprep.recvWr id hid), hprep.full id hid⟩
  · rw [← hprep.buffers]
    exact List.flatMap_congr fun id _ => congrArg ScatterGatherList.refsMemReg (hsame id).1
  · intro p id ids hids
    rw [hids] at hprep hnodupk hchain
    rw [hlistPool p { d with recvWRPool := q, workRequests := f }, ← hchain]
    refine workRequestList_chainWorkRequests hnodupk ?_ fun i hi => ?_
    · have hlen := congrArg List.length hids
      have hle := h.wrPool.length_le
      have hsize : q.poolSize = cfg.ibSRQSize * 2 := h₁.wrPoolSize
      rw [List.length_take] at hlen
      rw [h.wrPoolSize] at hle
      omega
    · have hwr := hprep.recvWr i hi
      exact ⟨congrArg IbvRecvWr.wrId hwr, congrArg IbvRecvWr.next hwr⟩

/-- `__Refill` asks the pool for the buffers of the work requests missing on the receive queue. -/
theorem run_refillGetBuffers : (refillGetBuffers cfg).run d =
    if d.recvQueuePending < cfg.ibSRQSize then
      match (RecvBufferPool.getBuffers cfg.arith
        ((cfg.ibSRQSize - d.recvQueuePending) * cfg.maxSGEs)).run d.recvBufferPool with
      | .ok refsMemReg p =>
        .ok (some (cfg.ibSRQSize - d.recvQueuePending, refsMemReg)) { d with recvBufferPool := p }
      | .error e p => .error e { d with recvBufferPool := p }
    else .ok none d := by
  by_cases hpending : d.recvQueuePending < cfg.ibSRQSize
  · simp only [refillGetBuffers, EStateM.run_bind, EStateM.run_get, if_pos hpending, onBufferPool,
      Exec.run_zoom]
    generalize (RecvBufferPool.getBuffers cfg.arith _).run d.recvBufferPool = result
    cases result <;> rfl
  · simp only [refillGetBuffers, EStateM.run_bind, EStateM.run_get, if_neg hpending,
      EStateM.run_pure]

theorem Holds.run_refillGetBuffers (h : d.Holds cfg pool es wrs) :
    (cfg.ibSRQSize ≤ d.recvQueuePending ∧ (refillGetBuffers cfg).run d = .ok none d) ∨
    ∃ k p, d.recvQueuePending < cfg.ibSRQSize ∧ k ≤ pool.length ∧
      (refillGetBuffers cfg).run d =
        .ok (some (cfg.ibSRQSize - d.recvQueuePending, pool.take k))
          { d with recvBufferPool := p } ∧
      Holds cfg { d with recvBufferPool := p } (pool.drop k) es wrs := by
  rw [RecvDispatcher.run_refillGetBuffers]
  by_cases hpending : d.recvQueuePending < cfg.ibSRQSize
  · have hle := h.pool.numBuffers_le ((cfg.ibSRQSize - d.recvQueuePending) * cfg.maxSGEs)
    have hgapped := h.bufferPoolSizeGapped_eq
    have hfront := h.pool.front_lt
    have hlength := h.pool.length_le
    have hsum : d.recvBufferPool.dataBuffersFront + d.recvBufferPool.numBuffers
        ((cfg.ibSRQSize - d.recvQueuePending) * cfg.maxSGEs) pool <
          2 * (cfg.bufferPoolSize + 1) := by
      rw [h.poolSize] at hlength
      omega
    have hrun := h.pool.run_getBuffers h.poolExact (by omega) hsum
    have hp := h.pool.afterGet hle
    generalize d.recvBufferPool.numBuffers
      ((cfg.ibSRQSize - d.recvQueuePending) * cfg.maxSGEs) pool = k at hrun hp hle
    have hfits : Fits cfg { d with recvBufferPool := d.recvBufferPool.afterGet k } es wrs :=
      h.fits.of_eq rfl rfl
    refine Or.inr ⟨k, _, hpending, hle, ?_, hfits.holds hp h.poolSize h.poolExact⟩
    rw [if_pos hpending, hrun]
  · exact Or.inl ⟨Nat.le_of_not_lt hpending, if_neg hpending⟩

/-! ### Polling and dispatching -/

/-- How many completions are polled leaves each room for all its buffers. -/
theorem Fits.pollLimit_spec (h : d.Fits cfg es wrs) :
    d.pollLimit cfg ≤ cfg.ibSRQSize ∧
      es.length + d.pollLimit cfg * max 1 cfg.maxSGEs ≤ cfg.ibSRQSize * cfg.maxSGEs := by
  have hle := h.ring.length_le
  have hfree : d.ringBuffer.numFreeEntries = cfg.ibSRQSize * cfg.maxSGEs - es.length := by
    rw [IncomingRingBuffer.numFreeEntries, h.ringSize, h.ring.usedEntries_eq]
  rw [h.ringSize] at hle
  refine ⟨Nat.min_le_right _ _, ?_⟩
  rw [pollLimit, hfree]
  rcases Nat.eq_zero_or_pos cfg.maxSGEs with hzero | hpos
  · simp only [hzero, Nat.mul_zero, Nat.div_zero, Nat.zero_min, Nat.zero_mul] at hle ⊢
    omega
  · have hdiv := Nat.div_mul_le_self (cfg.ibSRQSize * cfg.maxSGEs - es.length) cfg.maxSGEs
    have hmin : min ((cfg.ibSRQSize * cfg.maxSGEs - es.length) / cfg.maxSGEs) cfg.ibSRQSize *
        cfg.maxSGEs ≤ (cfg.ibSRQSize * cfg.maxSGEs - es.length) / cfg.maxSGEs * cfg.maxSGEs :=
      Nat.mul_le_mul_right _ (Nat.min_le_left _ _)
    rw [Nat.max_eq_right (by omega)]
    omega

/-- What `__Poll` does with the completions it gets. -/
theorem run_poll {wcs : List IbvRecvWc} (hlen : wcs.length ≤ d.pollLimit cfg) :
    ∃ b, (poll cfg (some wcs)).run d = .ok b
      { d with workComps := wcs, recvQueuePending := d.recvQueuePending - wcs.length } := by
  by_cases hfree : d.ringBuffer.numFreeEntries / cfg.maxSGEs > 0
  · simp only [poll, EStateM.run_bind, EStateM.run_get, if_pos hfree, EStateM.run_set,
      EStateM.run_pure]
    exact ⟨_, rfl⟩
  · have hnil : wcs = [] := by
      rw [pollLimit] at hlen
      exact List.length_eq_zero_iff.mp (by omega)
    subst hnil
    simp only [poll, EStateM.run_bind, EStateM.run_get, if_neg hfree, EStateM.run_set,
      EStateM.run_pure]
    exact ⟨_, rfl⟩

theorem Fits.run_dispatchReceived (h : d.Fits cfg es wrs) {processed : Nat}
    (hprocessed : es ≠ [] → processed ≤ es.length) :
    (es = [] ∧ (dispatchReceived processed).run d = .ok false d) ∨
    ∃ r, es ≠ [] ∧ (dispatchReceived processed).run d = .ok true { d with ringBuffer := r } ∧
      Fits cfg { d with ringBuffer := r } (es.drop processed) wrs := by
  by_cases hempty : es = []
  · refine Or.inl ⟨hempty, ?_⟩
    simp only [dispatchReceived, EStateM.run_bind, EStateM.run_get,
      if_pos (h.ring.isEmpty_iff.mpr hempty), EStateM.run_pure]
  · obtain ⟨r, hrun, hr, hsize⟩ := h.ring.run_popFront (hprocessed hempty)
    refine Or.inr ⟨r, hempty, ?_, hr, hsize.trans h.ringSize, h.wrPool, h.wrPoolSize⟩
    have hpop : (onRingBuffer (IncomingRingBuffer.popFront processed)).run d =
        .ok () { d with ringBuffer := r } := by rw [onRingBuffer, Exec.run_zoom, hrun]
    simp only [dispatchReceived, EStateM.run_bind, EStateM.run_get,
      if_neg (mt h.ring.isEmpty_iff.mp hempty), hpop, EStateM.run_pure]

end

end RecvDispatcher

end Ibdxnet.Msgrc
