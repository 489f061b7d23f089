import Ibdxnet.Lib.Arith
import Ibdxnet.Lib.Updates
import Ibdxnet.Msgrc.SendHandler
import Ibdxnet.Msgrc.SendWorkRequestCtxPool

/-!
# Slicing a work package into work requests

`SendDispatcher::__SendDataPrepareWorkRequests`.  A work package names a region
of a node's outgoing ring buffer of size `S`, from `m_posBackRel` up to
`m_posFrontRel`, which may wrap around, and a flow control byte.  Each round of
the loop takes the next piece of at most

    M = m_recvBufferSize * GetMaxSGEs()

bytes: one receive work request's worth.  `nextSlice` is the case distinction
on where that piece ends.  The code computes in `uint32_t`; the arithmetic is a
parameter (`Arith`), so that the slicing can be stated over the integers and
over 32 bit words.

`requests` is the loop without its side effects: the work requests a round
after round builds, before each gets its context.  A run of the loop takes a
context from the pool for each of them (`run_prepareLoop`).
-/

namespace Ibdxnet.Msgrc

open Ibdxnet.Con Sys

/-! ## Configuration and state -/

/-- What the dispatcher reads from its constructor arguments and the connection manager. -/
structure SendConfig where
  arith : Arith
  recvBufferSize : Nat
  maxSGEs : Nat
  ibSQSize : UInt16
  ibSharedSCQSize : UInt16

/-- `maxRecvBufferSize`: the most bytes one work request carries. -/
def SendConfig.maxRecvBufferSize (cfg : SendConfig) : Nat :=
  cfg.arith.mul cfg.recvBufferSize cfg.maxSGEs

/-- What the dispatcher reads of a `msgrc::Connection`. -/
structure Connection where
  sourceNodeId : NodeId
  remoteNodeId : NodeId
  sendBufferSize : Nat

structure SendDispatcher where
  prevWorkPackageResults : PrevWorkPackageResults
  completionList : CompletedWorkList
  completionsPending : Nat
  sendQueuePending : NodeId → Nat
  firstWc : Bool
  ignoreFlushErrOnPendingCompletions : Nat
  sendWrs : Nat → IbvSendWr
  workRequestCtxPool : SendWorkRequestCtxPool
  /-- The contexts the pool's entries point to. -/
  ctxs : Nat → SendWorkRequestCtx

/-- The constructor. -/
def SendDispatcher.init (cfg : SendConfig) : SendDispatcher where
  prevWorkPackageResults := .reset
  completionList := .init
  completionsPending := 0
  sendQueuePending _ := 0
  firstWc := true
  ignoreFlushErrOnPendingCompletions := 0
  sendWrs _ := .init
  workRequestCtxPool := .init cfg.ibSharedSCQSize.toNat
  ctxs _ := .init

/-! ## Algorithm -/

/-- Where the piece for one work request ends. -/
structure Slice where
  posEnd : Nat
  wrapAround : Bool
  debug : Nat

/-- The area to process for the next work request, from `posBack`, which is not `posFront`. -/
def nextSlice (A : Arith) (sizeBuffer maxRecvBufferSize posBack posFront : Nat) : Slice :=
  if posBack > posFront then
    if posFront = 0 then
      -- front at the start: the area ends at the end of the buffer
      if A.add posBack maxRecvBufferSize > sizeBuffer then ⟨sizeBuffer, false, 1⟩
      else ⟨A.add posBack maxRecvBufferSize, false, 2⟩
    else if A.add posBack maxRecvBufferSize ≤ sizeBuffer then
      ⟨A.add posBack maxRecvBufferSize, false, 3⟩
    else
      let areaAtEndOfBufferSize := A.sub sizeBuffer posBack
      if A.add posFront areaAtEndOfBufferSize > maxRecvBufferSize then
        ⟨A.sub maxRecvBufferSize areaAtEndOfBufferSize, true, 4⟩
      else ⟨posFront, true, 5⟩
  else if A.add posBack maxRecvBufferSize > posFront then ⟨posFront, false, 6⟩
  else ⟨A.add posBack maxRecvBufferSize, false, 7⟩

/-- What a round of the loop puts into a work request and its context. -/
structure SendRequest where
  sgList : List IbvSge
  sendSize : Nat
  fcData : UInt8
  posFront : Nat
  posBack : Nat
  posEnd : Nat
  debug : Nat
  deriving DecidableEq, Repr

/-- The flow control only branch. -/
def flowControlRequest (fcData : UInt8) : SendRequest where
  sgList := []
  sendSize := 0
  fcData := fcData
  posFront := 0
  posBack := 0
  posEnd := 0
  debug := 0

/-- The data branch: one scatter-gather element, or two on a wrap around. -/
def dataRequest (cfg : SendConfig) (sizeBuffer posFront posBack : Nat) (fcData : UInt8) :
    SendRequest :=
  let slice := nextSlice cfg.arith sizeBuffer cfg.maxRecvBufferSize posBack posFront
  if slice.wrapAround = false then
    let length := cfg.arith.sub slice.posEnd posBack
    { sgList := [⟨posBack, length⟩]
      sendSize := length
      fcData := fcData
      posFront := posFront
      posBack := posBack
      posEnd := slice.posEnd
      debug := slice.debug + 10 }
  else
    let first := cfg.arith.sub sizeBuffer posBack
    { sgList := [⟨posBack, first⟩, ⟨0, slice.posEnd⟩]
      sendSize := cfg.arith.add first slice.posEnd
      fcData := fcData
      posFront := posFront
      posBack := posBack
      posEnd := slice.posEnd
      debug := slice.debug + 20 }

/-- The back position after a data request; the end of the buffer is its start. -/
def nextPosBack (sizeBuffer : Nat) (r : SendRequest) : Nat :=
  if r.posEnd = sizeBuffer then 0 else r.posEnd

def SendRequest.toCtx (r : SendRequest) (nodeId : NodeId) : SendWorkRequestCtx where
  targetNodeId := nodeId
  fcData := r.fcData.toUInt16
  sendSize := r.sendSize
  posFront := r.posFront
  posBack := r.posBack
  posEnd := r.posEnd
  debug := r.debug

def SendRequest.toWr (r : SendRequest) (sourceNodeId : NodeId) (ctx : Nat) : IbvSendWr where
  wrId := ctx
  next := none
  sgList := r.sgList
  immData := ⟨sourceNodeId, r.fcData⟩
  signaled := false

/-- The local variables of the loop. -/
structure PrepareState where
  fcData : UInt8
  posBack : Nat
  chunksPos : Nat
  sgeListPos : Nat
  totalBytesProcessed : Nat
  totalFcDataProcessed : UInt8

/-- Take a context from the pool and fill in the work request at `m_sendWrs[chunksPos]`. -/
def fillWorkRequest (connection : Connection) (nodeId : NodeId) (chunksPos : Nat)
    (r : SendRequest) : EStateM Exception SendDispatcher Unit := do
  let ctx ← Exec.zoom SendDispatcher.workRequestCtxPool
    (fun d p => { d with workRequestCtxPool := p }) SendWorkRequestCtxPool.pop
  modify fun d =>
    { d with
      ctxs := Function.update d.ctxs ctx (r.toCtx nodeId)
      sendWrs := Function.update d.sendWrs chunksPos (r.toWr connection.sourceNodeId ctx) }

/-- The sanity check of the data branch. -/
def checkLength (cfg : SendConfig) (r : SendRequest) : EStateM Exception SendDispatcher Unit :=
  if r.sendSize > cfg.maxRecvBufferSize then
    throw (.illegalState "Total length %d > max recv buffer size %d")
  else
    pure ()

/-- The side effects of the data branch.  With two scatter-gather elements the
sanity check comes before the context is taken, with one after it. -/
def fillDataRequest (cfg : SendConfig) (connection : Connection) (nodeId : NodeId)
    (chunksPos : Nat) (r : SendRequest) : EStateM Exception SendDispatcher Unit :=
  if r.sgList.length = 1 then do
    fillWorkRequest connection nodeId chunksPos r
    checkLength cfg r
  else do
    checkLength cfg r
    fillWorkRequest connection nodeId chunksPos r

/-- The rounds of the loop.  The first argument is the room in the send queue,
`GetIbSQSize() - (m_sendQueuePending[nodeId] + chunksPos)`: the loop condition
asks it to be positive. -/
def prepareLoop (cfg : SendConfig) (connection : Connection) (workPackage : NextWorkPackage) :
    Nat → PrepareState → EStateM Exception SendDispatcher PrepareState
  | 0, l => pure l
  | room + 1, l =>
    if l.posBack ≠ workPackage.posFrontRel ∨ l.fcData ≠ 0 then
      if l.posBack = workPackage.posFrontRel ∧ l.fcData ≠ 0 then do
        fillWorkRequest connection workPackage.nodeId l.chunksPos (flowControlRequest l.fcData)
        pure { l with
          chunksPos := l.chunksPos + 1
          totalFcDataProcessed := l.fcData
          fcData := 0 }
      else do
        let r :=
          dataRequest cfg connection.sendBufferSize workPackage.posFrontRel l.posBack l.fcData
        fillDataRequest cfg connection workPackage.nodeId l.chunksPos r
        let l' : PrepareState :=
          { fcData := 0
            posBack := nextPosBack connection.sendBufferSize r
            chunksPos := l.chunksPos + 1
            sgeListPos := l.sgeListPos + r.sgList.length
            totalBytesProcessed := cfg.arith.add l.totalBytesProcessed r.sendSize
            totalFcDataProcessed := if l.fcData > 0 then l.fcData else l.totalFcDataProcessed }
        if l'.posBack = workPackage.posFrontRel then pure l'
        else prepareLoop cfg connection workPackage room l'
    else pure l

/-- `totalBytesToProcess`: the size of the region, with one wrap around. -/
def totalBytesToProcess (cfg : SendConfig) (sizeBuffer posBack posFront : Nat) : Nat :=
  if posBack > posFront then cfg.arith.add (cfg.arith.sub sizeBuffer posBack) posFront
  else cfg.arith.sub posFront posBack

/-- `__SendDataPrepareWorkRequests`; returns the number of work requests. -/
def sendDataPrepareWorkRequests (cfg : SendConfig) (connection : Connection)
    (workPackage : NextWorkPackage) : EStateM Exception SendDispatcher Nat := do
  let d ← get
  let l ← prepareLoop cfg connection workPackage
    (cfg.ibSQSize.toNat - d.sendQueuePending workPackage.nodeId)
    { fcData := workPackage.flowControlData
      posBack := workPackage.posBackRel
      chunksPos := 0
      sgeListPos := 0
      totalBytesProcessed := 0
      totalFcDataProcessed := 0 }
  modify fun d =>
    { d with prevWorkPackageResults := { d.prevWorkPackageResults with
        nodeId := workPackage.nodeId
        fcDataNotPosted := l.fcData
        fcDataPosted := l.totalFcDataProcessed } }
  if workPackage.flowControlData.toNat ≠ l.fcData.toNat + l.totalFcDataProcessed.toNat then
    throw (.illegalState "FC data balance incorrect %d != %d + %d")
  modify fun d =>
    { d with prevWorkPackageResults := { d.prevWorkPackageResults with
        numBytesPosted := l.totalBytesProcessed
        numBytesNotPosted := cfg.arith.sub
          (totalBytesToProcess cfg connection.sendBufferSize workPackage.posBackRel
            workPackage.posFrontRel) l.totalBytesProcessed } }
  pure l.chunksPos

/-! ## The work requests of the loop -/

/-- The work requests the loop builds with this much room in the send queue. -/
def requests (cfg : SendConfig) (sizeBuffer posFront : Nat) : Nat → Nat → UInt8 → List SendRequest
  | 0, _, _ => []
  | room + 1, posBack, fcData =>
    if posBack ≠ posFront ∨ fcData ≠ 0 then
      if posBack = posFront ∧ fcData ≠ 0 then [flowControlRequest fcData]
      else
        let r := dataRequest cfg sizeBuffer posFront posBack fcData
        if nextPosBack sizeBuffer r = posFront then [r]
        else r :: requests cfg sizeBuffer posFront room (nextPosBack sizeBuffer r) 0
    else []

/-- `totalBytesProcessed` after one more request; a flow control request does not touch it. -/
def addSendSize (A : Arith) (totalBytesProcessed : Nat) (r : SendRequest) : Nat :=
  if r.sgList = [] then totalBytesProcessed else A.add totalBytesProcessed r.sendSize

/-- The locals after the loop has built the requests `rs`. -/
structure PrepareState.After (l l' : PrepareState) (cfg : SendConfig) (rs : List SendRequest) :
    Prop where
  chunksPos : l'.chunksPos = l.chunksPos + rs.length
  totalBytesProcessed : l'.totalBytesProcessed =
    rs.foldl (addSendSize cfg.arith) l.totalBytesProcessed
  fcData : l'.fcData = if rs = [] then l.fcData else 0
  totalFcDataProcessed : l'.totalFcDataProcessed =
    if rs = [] ∨ l.fcData = 0 then l.totalFcDataProcessed else l.fcData

/-- The dispatcher after the requests `rs` got the contexts `ids`, in the
entries of `m_sendWrs` from `chunksPos` on. -/
def SendDispatcher.store (d : SendDispatcher) (connection : Connection) (nodeId : NodeId)
    (chunksPos : Nat) (ids : List Nat) (rs : List SendRequest) (p : SendWorkRequestCtxPool) :
    SendDispatcher :=
  { d with
    ctxs := Updates.updateAll d.ctxs ids (rs.map fun r => r.toCtx nodeId)
    sendWrs := Updates.updateAll d.sendWrs (List.range' chunksPos rs.length)
      (List.zipWith (fun ctx r => r.toWr connection.sourceNodeId ctx) ids rs)
    workRequestCtxPool := p }

theorem dataRequest_sgList_ne_nil (cfg : SendConfig) (sizeBuffer posFront posBack : Nat)
    (fcData : UInt8) : (dataRequest cfg sizeBuffer posFront posBack fcData).sgList ≠ [] := by
  rw [dataRequest]
  split <;> simp

section
variable {connection : Connection} {nodeId : NodeId} {chunksPos : Nat} {r : SendRequest}
  {d : SendDispatcher}

variable (connection nodeId chunksPos r) in
theorem run_fillWorkRequest_nil (h : d.workRequestCtxPool.Holds []) :
    (fillWorkRequest connection nodeId chunksPos r).run d =
      .error (.poolIllegalState "Pool ran dry, m_front %d, m_back %d") d := by
  simp only [fillWorkRequest, EStateM.run_bind, Exec.run_zoom, h.run_pop_nil]

variable (connection nodeId chunksPos r) in
theorem run_fillWorkRequest {x : Nat} {xs : List Nat} (h : d.workRequestCtxPool.Holds (x :: xs)) :
    ∃ p, (fillWorkRequest connection nodeId chunksPos r).run d =
      .ok () (d.store connection nodeId chunksPos [x] [r] p) ∧ p.Holds xs ∧
      p.poolSize = d.workRequestCtxPool.poolSize := by
  obtain ⟨p, hrun, hp, hsize⟩ := h.run_pop
  refine ⟨p, ?_, hp, hsize⟩
  simp only [fillWorkRequest, EStateM.run_bind, Exec.run_zoom, hrun, EStateM.run_modify]
  rfl

theorem run_fillDataRequest_ok {cfg : SendConfig} {d' : SendDispatcher} {xs : List Nat}
    (h : d.workRequestCtxPool.Holds xs)
    (hrun : (fillDataRequest cfg connection nodeId chunksPos r).run d = .ok () d') :
    ∃ x rest p, xs = x :: rest ∧ d' = d.store connection nodeId chunksPos [x] [r] p ∧
      p.Holds rest ∧ p.poolSize = d.workRequestCtxPool.poolSize ∧
      r.sendSize ≤ cfg.maxRecvBufferSize := by
  cases xs with
  | nil =>
    have hfill := run_fillWorkRequest_nil connection nodeId chunksPos r h
    rw [fillDataRequest] at hrun
    split at hrun
    · simp only [EStateM.run_bind, hfill, reduceCtorEq] at hrun
    · rw [checkLength] at hrun
      split at hrun <;> simp only [EStateM.run_bind, Exec.run_throw, EStateM.run_pure, hfill,
        reduceCtorEq] at hrun
  | cons x rest =>
    obtain ⟨p, hfill, hp, hsize⟩ := run_fillWorkRequest connection nodeId chunksPos r h
    refine ⟨x, rest, p, rfl, ?_⟩
    by_cases hle : r.sendSize > cfg.maxRecvBufferSize
    · rw [fillDataRequest] at hrun
      split at hrun <;> simp only [checkLength, if_pos hle, EStateM.run_bind, hfill,
        Exec.run_throw, reduceCtorEq] at hrun
    · have hd : d' = d.store connection nodeId chunksPos [x] [r] p := by
        rw [fillDataRequest] at hrun
        split at hrun <;> simp only [checkLength, if_neg hle, EStateM.run_bind, hfill,
          EStateM.run_pure, EStateM.Result.ok.injEq, true_and] at hrun <;> exact hrun.symm
      exact ⟨hd, hp, hsize, Nat.not_lt.mp hle⟩

theorem store_store {x : Nat} {ids : List Nat} {rs : List SendRequest}
    {p q : SendWorkRequestCtxPool} :
    (d.store connection nodeId chunksPos [x] [r] p).store connection nodeId (chunksPos + 1) ids rs q
      = d.store connection nodeId chunksPos (x :: ids) (r :: rs) q := rfl

end

section
variable {cfg : SendConfig} {connection : Connection} {workPackage : NextWorkPackage}

/-- A run of the loop that returns has built `requests`, each with its context. -/
theorem run_prepareLoop_ok {room : Nat} {l l' : PrepareState} {d d' : SendDispatcher}
    {xs : List Nat} (h : d.workRequestCtxPool.Holds xs)
    (hrun : (prepareLoop cfg connection workPackage room l).run d = .ok l' d') :
    let rs := requests cfg connection.sendBufferSize workPackage.posFrontRel room l.posBack l.fcData
    ∃ ids rest p, xs = ids ++ rest ∧ ids.length = rs.length ∧ p.Holds rest ∧
      p.poolSize = d.workRequestCtxPool.poolSize ∧
      d' = d.store connection workPackage.nodeId l.chunksPos ids rs p ∧ l.After l' cfg rs := by
  induction room generalizing l d xs with
  | zero =>
    simp only [prepareLoop, EStateM.run_pure, EStateM.Result.ok.injEq] at hrun
    obtain ⟨rfl, rfl⟩ := hrun
    exact ⟨[], xs, _, rfl, rfl, h, rfl, rfl, ⟨rfl, rfl, rfl, rfl⟩⟩
  | succ room ih =>
    rw [prepareLoop] at hrun
    rw [requests]
    by_cases hcond : l.posBack ≠ workPackage.posFrontRel ∨ l.fcData ≠ 0
    · rw [if_pos hcond] at hrun ⊢
      by_cases hfc : l.posBack = workPackage.posFrontRel ∧ l.fcData ≠ 0
      · rw [if_pos hfc] at hrun ⊢
        cases xs with
        | nil =>
          simp only [EStateM.run_bind, run_fillWorkRequest_nil _ _ _ _ h, reduceCtorEq] at hrun
        | cons x rest =>
          obtain ⟨p, hfill, hp, hsize⟩ := run_fillWorkRequest connection workPackage.nodeId
            l.chunksPos (flowControlRequest l.fcData) h
          simp only [EStateM.run_bind, hfill, EStateM.run_pure, EStateM.Result.ok.injEq] at hrun
          obtain ⟨rfl, rfl⟩ := hrun
          exact ⟨[x], rest, p, rfl, rfl, hp, hsize, rfl, ⟨rfl, rfl, rfl, by simp [hfc.2]⟩⟩
      · rw [if_neg hfc] at hrun ⊢
        obtain ⟨_, d₁, hfill, hrun⟩ := Exec.run_bind_eq_ok.mp hrun
        obtain ⟨x, rest₁, p₁, rfl, rfl, hp₁, hsize₁, -⟩ := run_fillDataRequest_ok h hfill
        have hsgl := dataRequest_sgList_ne_nil cfg connection.sendBufferSize
          workPackage.posFrontRel l.posBack l.fcData
        simp only at hrun
        generalize dataRequest cfg connection.sendBufferSize workPackage.posFrontRel l.posBack
          l.fcData = r at hrun hsgl ⊢
        have hfc' : (if l.fcData > 0 then l.fcData else l.totalFcDataProcessed) =
            if l.fcData = 0 then l.totalFcDataProcessed else l.fcData := by
          by_cases h0 : l.fcData = 0 <;> simp [h0, UInt8.pos_iff_ne_zero]
        by_cases hlast : nextPosBack connection.sendBufferSize r = workPackage.posFrontRel
        · rw [if_pos hlast] at hrun
          simp only [if_pos hlast]
          simp only [EStateM.run_pure, EStateM.Result.ok.injEq] at hrun
          obtain ⟨rfl, rfl⟩ := hrun
          exact ⟨[x], rest₁, p₁, rfl, rfl, hp₁, hsize₁, rfl,
            ⟨rfl, by simp [addSendSize, hsgl], by simp, by simpa using hfc'⟩⟩
        · rw [if_neg hlast] at hrun
          simp only [if_neg hlast]
          obtain ⟨ids, rest, p, rfl, hlen, hp, hsize, rfl, hafter⟩ := ih hp₁ hrun
          refine ⟨x :: ids, rest, p, rfl, by simp [hlen], hp, hsize.trans hsize₁, store_store, ?_⟩
          refine ⟨?_, ?_, ?_, ?_⟩
          · have hpos := hafter.chunksPos
            simp only at hpos
            rw [hpos, List.length_cons]
            omega
          · rw [hafter.totalBytesProcessed, List.foldl_cons, addSendSize, if_neg hsgl]
          · rw [hafter.fcData]
            simp
          · rw [hafter.totalFcDataProcessed]
            simpa using hfc'
    · rw [if_neg hcond] at hrun ⊢
      simp only [EStateM.run_pure, EStateM.Result.ok.injEq] at hrun
      obtain ⟨rfl, rfl⟩ := hrun
      exact ⟨[], xs, _, rfl, rfl, h, rfl, rfl, ⟨rfl, rfl, rfl, rfl⟩⟩

variable (connection) in
theorem run_fillDataRequest (nodeId : NodeId) (chunksPos : Nat) {r : SendRequest}
    {d : SendDispatcher} {x : Nat} {xs : List Nat} (h : d.workRequestCtxPool.Holds (x :: xs))
    (hr : r.sendSize ≤ cfg.maxRecvBufferSize) :
    ∃ p, (fillDataRequest cfg connection nodeId chunksPos r).run d =
      .ok () (d.store connection nodeId chunksPos [x] [r] p) ∧ p.Holds xs := by
  obtain ⟨p, hfill, hp, -⟩ := run_fillWorkRequest connection nodeId chunksPos r h
  refine ⟨p, ?_, hp⟩
  rw [fillDataRequest]
  split <;> simp only [checkLength, if_neg (Nat.not_lt.mpr hr), EStateM.run_bind, hfill,
    EStateM.run_pure]

/-- With a context for each request and none too long the loop returns. -/
theorem run_prepareLoop_isOk {room : Nat} {l : PrepareState} {d : SendDispatcher} {xs : List Nat}
    (h : d.workRequestCtxPool.Holds xs)
    (hlen : (requests cfg connection.sendBufferSize workPackage.posFrontRel room l.posBack
      l.fcData).length ≤ xs.length)
    (hsize : ∀ r ∈ requests cfg connection.sendBufferSize workPackage.posFrontRel room l.posBack
      l.fcData, r.sendSize ≤ cfg.maxRecvBufferSize) :
    ∃ l' d', (prepareLoop cfg connection workPackage room l).run d = .ok l' d' := by
  induction room generalizing l d xs with
  | zero => exact ⟨l, d, rfl⟩
  | succ room ih =>
    rw [requests] at hlen hsize
    rw [prepareLoop]
    by_cases hcond : l.posBack ≠ workPackage.posFrontRel ∨ l.fcData ≠ 0
    · rw [if_pos hcond] at hlen hsize ⊢
      by_cases hfc : l.posBack = workPackage.posFrontRel ∧ l.fcData ≠ 0
      · rw [if_pos hfc] at hlen ⊢
        cases xs with
        | nil => exact absurd hlen (by simp)
        | cons x rest =>
          obtain ⟨p, hfill, -⟩ := run_fillWorkRequest connection workPackage.nodeId
            l.chunksPos (flowControlRequest l.fcData) h
          simp only [EStateM.run_bind, hfill, EStateM.run_pure]
          exact ⟨_, _, rfl⟩
      · rw [if_neg hfc] at hlen hsize ⊢
        simp only at hlen hsize ⊢
        generalize dataRequest cfg connection.sendBufferSize workPackage.posFrontRel l.posBack
          l.fcData = r at hlen hsize ⊢
        cases xs with
        | nil => split at hlen <;> simp at hlen
        | cons x rest =>
          by_cases hlast : nextPosBack connection.sendBufferSize r = workPackage.posFrontRel
          · rw [if_pos hlast] at hsize
            obtain ⟨p, hfill, -⟩ := run_fillDataRequest connection workPackage.nodeId
              l.chunksPos h (hsize r List.mem_cons_self)
            simp only [EStateM.run_bind, hfill, if_pos hlast, EStateM.run_pure]
            exact ⟨_, _, rfl⟩
          · rw [if_neg hlast] at hlen hsize
            obtain ⟨p, hfill, hp⟩ := run_fillDataRequest connection workPackage.nodeId
              l.chunksPos h (hsize r List.mem_cons_self)
            simp only [EStateM.run_bind, hfill, if_neg hlast]
            exact ih hp (by simpa using hlen) fun r' hr' => hsize r' (List.mem_cons_of_mem r hr')
    · rw [if_neg hcond]
      exact ⟨l, d, rfl⟩

end

end Ibdxnet.Msgrc
