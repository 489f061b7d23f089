import Ibdxnet.Lib.Lts
import Ibdxnet.Msgrc.IncomingRingBuffer
import Ibdxnet.Msgrc.RecvWorkRequestPool
import Ibdxnet.Msgrc.SendHandler
import Mathlib.Data.List.Perm.Subperm

/-!
# The receive dispatcher

`RecvDispatcher::Dispatch`: poll the completion queue, refill the receive
queue, move the received buffers to the incoming ring buffer, and offer the ring
buffer to the receive handler.  The handler returns buffers from other threads,
so a call of `Dispatch` is taken apart into steps with at most one operation of
the buffer pool each:

    poll | refill (GetBuffers) | refillPost (ReturnBuffers) |
      process (ReturnBuffers), once for each completion | dispatchReceived

and between any two of them the handler may return buffers.

The dispatcher runs in a `RecvWorld`.  The world holds the work requests on the
receive queue, the memory of the buffers, which an arriving message is
scattered into, and the buffers the handler has been given.  It also keeps a log
of the messages that arrived, of the entries appended for each of them and of the
entries the handler was given, each entry with the bytes it stood for then.

The sizes are `uint16_t`, so that their products and the counters bounded by
them are taken as exact; the positions in the buffer pool are `uint32_t`, and the
pool's arithmetic is a parameter (`RecvConfig.arith`).
-/

namespace Ibdxnet.Msgrc

open Ibdxnet.Con Sys Dx

structure RecvConfig where
  /-- What the buffer pool computes its positions with. -/
  arith : Arith
  ibSRQSize : Nat
  maxSGEs : Nat
  recvBufferSize : Nat
  /-- The address of the pool's memory region. -/
  memoryPool : Nat
  bufferPoolSize : Nat

/-- `GetSizeBuffer` of a buffer of the pool. -/
def RecvConfig.getSizeBuffer (cfg : RecvConfig) (_ : IbMemReg) : Nat := cfg.recvBufferSize

/-- `GetAddress` of a buffer of the pool. -/
def RecvConfig.getAddress (cfg : RecvConfig) (b : IbMemReg) : Nat :=
  cfg.memoryPool + b * cfg.recvBufferSize

/-- `ibv_wc` as the receive side reads it. -/
structure IbvRecvWc where
  wrId : Nat
  status : IbvWcStatus
  byteLen : Nat
  immData : ImmediateData
  deriving DecidableEq, Repr

structure RecvDispatcher where
  recvBufferPool : RecvBufferPool
  ringBuffer : IncomingRingBuffer
  /-- `m_workComps`, the first `m_received` entries. -/
  workComps : List IbvRecvWc
  recvQueuePending : Nat
  firstWc : Bool
  recvWRPool : RecvWorkRequestPool
  /-- The objects `m_pool` of the work request pool points to. -/
  workRequests : Nat → RecvWorkRequest

namespace RecvDispatcher

/-- `m_received` -/
def received (d : RecvDispatcher) : Nat := d.workComps.length

def init (cfg : RecvConfig) : RecvDispatcher where
  recvBufferPool := .init cfg.bufferPoolSize
  ringBuffer := .init (cfg.ibSRQSize * cfg.maxSGEs)
  workComps := []
  recvQueuePending := 0
  firstWc := true
  recvWRPool := .init (cfg.ibSRQSize * 2)
  workRequests _ := .init cfg.maxSGEs

/-! ## The parts of the dispatcher -/

def onBufferPool {α : Type} (x : EStateM Exception RecvBufferPool α) :
    EStateM Exception RecvDispatcher α :=
  Exec.zoom recvBufferPool (fun d p => { d with recvBufferPool := p }) x

def onRingBuffer {α : Type} (x : EStateM Exception IncomingRingBuffer α) :
    EStateM Exception RecvDispatcher α :=
  Exec.zoom ringBuffer (fun d r => { d with ringBuffer := r }) x

def onWRPool {α : Type} (x : EStateM Exception RecvWorkRequestPool α) :
    EStateM Exception RecvDispatcher α :=
  Exec.zoom recvWRPool (fun d p => { d with recvWRPool := p }) x

/-- The dispatcher after a change of the object `id`. -/
def modifyWR (d : RecvDispatcher) (id : Nat) (f : RecvWorkRequest → RecvWorkRequest) :
    RecvDispatcher :=
  { d with workRequests := Function.update d.workRequests id (f (d.workRequests id)) }

/-! ## Poll -/

/-- How many completions `__Poll` asks for, zero where it does not poll. -/
def pollLimit (cfg : RecvConfig) (d : RecvDispatcher) : Nat :=
  min (d.ringBuffer.numFreeEntries / cfg.maxSGEs) cfg.ibSRQSize

/-- `__Poll`; `ret` is what `ibv_poll_cq` gives, `none` for a negative result. -/
def poll (cfg : RecvConfig) (ret : Option (List IbvRecvWc)) :
    EStateM Exception RecvDispatcher Bool := do
  let d ← get
  if d.ringBuffer.numFreeEntries / cfg.maxSGEs > 0 then
    match ret with
    | none => throw (.ibException "Polling completion queue failed")
    | some workComps =>
      set { d with
        workComps := workComps
        recvQueuePending := d.recvQueuePending - workComps.length }
  else
    -- can't receive, no space in ring buffer. leave possible completions in CQ
    set { d with workComps := [] }
  let d ← get
  pure (decide (d.received > 0))

/-! ## Refill -/

/-- `recvWRs[i]->m_sgls.Add(…)` -/
def addBuffer (id : Nat) (b : IbMemReg) : EStateM Exception RecvDispatcher Unit :=
  Exec.zoom (fun d => (d.workRequests id).sgls)
    (fun d l => d.modifyWR id fun wr => { wr with sgls := l }) (ScatterGatherList.add b)

def addBuffers (id : Nat) : List IbMemReg → EStateM Exception RecvDispatcher Unit
  | [] => pure ()
  | b :: bs => do
    addBuffer id b
    addBuffers id bs

/-- The loop of `__Refill` that prepares up to this many work requests from the
buffers left; returns them and the buffers it did not use. -/
def prepareWorkRequests (cfg : RecvConfig) :
    Nat → List IbMemReg → EStateM Exception RecvDispatcher (List Nat × List IbMemReg)
  | 0, refsMemReg => pure ([], refsMemReg)
  | n + 1, refsMemReg => do
    -- not enough buffers left to prepare work request with a full SGE list
    if cfg.maxSGEs > refsMemReg.length then
      pure ([], refsMemReg)
    else
      let recvWR ← onWRPool RecvWorkRequestPool.pop
      modify fun d => d.modifyWR recvWR fun wr => { wr with sgls := wr.sgls.reset }
      -- create SGE list, always with max length
      addBuffers recvWR (refsMemReg.take cfg.maxSGEs)
      modify fun d => d.modifyWR recvWR (RecvWorkRequest.prepare recvWR)
      let (recvWRs, rest) ← prepareWorkRequests cfg n (refsMemReg.drop cfg.maxSGEs)
      pure (recvWR :: recvWRs, rest)

/-- The loop of `__Refill` that chains the prepared work requests. -/
def chainWorkRequests (d : RecvDispatcher) : List Nat → RecvDispatcher
  | [] => d
  | [_] => d
  | id :: id' :: ids =>
    chainWorkRequests (d.modifyWR id (RecvWorkRequest.chain id')) (id' :: ids)

/-- The list `ibv_post_srq_recv` walks from object `id` on; there are this many objects. -/
def workRequestList (d : RecvDispatcher) : Nat → Nat → List Nat
  | 0, _ => []
  | n + 1, id => (d.workRequests id).recvWr.wrId ::
    match (d.workRequests id).recvWr.next with
    | none => []
    | some id' => d.workRequestList n id'

/-- The part of `__Refill` up to `GetBuffers`: how many work requests are
missing on the receive queue, and buffers for them. -/
def refillGetBuffers (cfg : RecvConfig) :
    EStateM Exception RecvDispatcher (Option (Nat × List IbMemReg)) := do
  let d ← get
  if d.recvQueuePending < cfg.ibSRQSize then
    let toQueueElems := cfg.ibSRQSize - d.recvQueuePending
    let refsMemReg ← onBufferPool
      (RecvBufferPool.getBuffers cfg.arith (toQueueElems * cfg.maxSGEs))
    pure (some (toQueueElems, refsMemReg))
  else
    pure none

/-- `ReturnBuffers` of the buffers that were not used, if there are any. -/
def returnUnused (cfg : RecvConfig) (rest : List IbMemReg) :
    EStateM Exception RecvDispatcher Unit :=
  if rest.length > 0 then onBufferPool (RecvBufferPool.returnBuffers cfg.arith rest) else pure ()

/-- The rest of `__Refill` up to `ibv_post_srq_recv`: prepare work requests,
return the unused buffers and chain.  Returns the work requests. -/
def refillPrepare (cfg : RecvConfig) (toQueueElems : Nat) (refsMemReg : List IbMemReg) :
    EStateM Exception RecvDispatcher (List Nat) := do
  let (recvWRs, rest) ← prepareWorkRequests cfg toQueueElems refsMemReg
  -- return unused buffers which could not fill a full SGE list
  returnUnused cfg rest
  modify fun d => d.chainWorkRequests recvWRs
  pure recvWRs

/-! ## Processing completions -/

/-- The check of a completion's status. -/
def checkStatus (wc : IbvRecvWc) : EStateM Exception RecvDispatcher Unit := do
  let d ← get
  match wc.status with
  | .success => pure ()
  | .retryExcErr =>
    if d.firstWc then
      throw (.ibException ("First work completion of queue failed, it's very likely your " ++
        "connection attributes are wrong or the remote site isn't in a state to respond"))
    else
      throw (.disconnected wc.immData.sourceNodeId)
  | _ => throw (.ibException "Found failed work completion (%d), status %s")

/-- The entry of flow control data that came without data. -/
def fcEntry (immData : ImmediateData) : Entry where
  sourceNodeId := immData.sourceNodeId
  fcData := immData.flowControlData
  padding := 0xFF
  dataLength := 0
  data := none
  dataRaw := 0

/-- The entry of one buffer with received data. -/
def dataEntry (cfg : RecvConfig) (immData : ImmediateData) (b : IbMemReg) (dataLength : Nat) :
    Entry where
  sourceNodeId := immData.sourceNodeId
  fcData := immData.flowControlData
  padding := 0xFF
  dataLength := dataLength
  data := some b
  dataRaw := cfg.getAddress b

/-- The loop over the buffers of a completed work request; returns `sgesUsed`. -/
def processBuffers (cfg : RecvConfig) :
    ImmediateData → Nat → List IbMemReg → EStateM Exception RecvDispatcher Nat
  | _, _, [] => pure 0
  | immData, dataRecvLenTmp, b :: bs => do
    let maxBufferSize := cfg.getSizeBuffer b
    let (dataLength, dataRecvLenTmp) :=
      if dataRecvLenTmp ≥ maxBufferSize then (maxBufferSize, dataRecvLenTmp - maxBufferSize)
      else (dataRecvLenTmp, 0)
    onRingBuffer (IncomingRingBuffer.pushEntry (dataEntry cfg immData b dataLength))
    if dataRecvLenTmp = 0 then
      pure 1
    else
      -- fc data with immediate data available, process once on first SGE
      let sgesUsed ← processBuffers cfg { immData with flowControlData := 0 } dataRecvLenTmp bs
      pure (sgesUsed + 1)

/-- One round of the loop of `__ProcessCompletions`. -/
def processCompletion (cfg : RecvConfig) (wc : IbvRecvWc) :
    EStateM Exception RecvDispatcher Unit := do
  checkStatus wc
  modify fun d => { d with firstWc := false }
  let d ← get
  let refsMemReg := (d.workRequests wc.wrId).sgls.refsMemReg
  if wc.byteLen = 0 then
    -- SGE buffers are unused, return them to pool
    onBufferPool (RecvBufferPool.returnBuffers cfg.arith refsMemReg)
    onWRPool (RecvWorkRequestPool.push wc.wrId)
    if wc.immData.flowControlData = 0 then
      throw (.illegalState "Zero length data received but no flow control data")
    onRingBuffer (IncomingRingBuffer.pushEntry (fcEntry wc.immData))
  else
    let sgesUsed ← processBuffers cfg wc.immData wc.byteLen refsMemReg
    -- return unused SGEs
    returnUnused cfg (refsMemReg.drop sgesUsed)
    onWRPool (RecvWorkRequestPool.push wc.wrId)

/-- `__DispatchReceived`; `processed` is what the handler returns. -/
def dispatchReceived (processed : Nat) : EStateM Exception RecvDispatcher Bool := do
  let d ← get
  if d.ringBuffer.isEmpty then
    pure false
  else
    onRingBuffer (IncomingRingBuffer.popFront processed)
    pure true

end RecvDispatcher

/-! ## Surroundings -/

structure Message where
  bytes : List UInt8
  immData : ImmediateData
  deriving DecidableEq, Repr

/-- A message that completes the work request `wrId`. -/
structure Arrival where
  wrId : Nat
  status : IbvWcStatus
  message : Message
  deriving DecidableEq, Repr

def Arrival.toWc (a : Arrival) : IbvRecvWc where
  wrId := a.wrId
  status := a.status
  byteLen := a.message.bytes.length
  immData := a.message.immData

/-- The buffers a message of `n` bytes is scattered over. -/
def filledBuffers (cfg : RecvConfig) : List IbMemReg → Nat → List IbMemReg
  | [], _ => []
  | b :: bs, n => if n = 0 then [] else b :: filledBuffers cfg bs (n - cfg.getSizeBuffer b)

/-- The memory after a message is scattered in order over the buffers. -/
def scatter (cfg : RecvConfig) (memory : IbMemReg → List UInt8) :
    List IbMemReg → List UInt8 → IbMemReg → List UInt8
  | [], _ => memory
  | b :: bs, bytes =>
    if bytes = [] then memory
    else scatter cfg (Function.update memory b (bytes.take (cfg.getSizeBuffer b))) bs
      (bytes.drop (cfg.getSizeBuffer b))

/-- The bytes an entry stands for. -/
def Entry.bytes (memory : IbMemReg → List UInt8) (e : Entry) : List UInt8 :=
  match e.data with
  | none => []
  | some b => (memory b).take e.dataLength

/-- Where the thread of the dispatcher is; the arguments are locals of `__Refill`
and the loop counter of `__ProcessCompletions`. -/
inductive RecvPc
  | poll
  | refill
  | refillPost (toQueueElems : Nat) (refsMemReg : List IbMemReg)
  | process (i : Nat)
  | dispatchReceived
  deriving DecidableEq, Repr

/-- A step of the dispatcher, with what its surroundings answer, or a return of
buffers by the handler. -/
inductive RecvAction
  | poll (ret : Option (List Arrival))
  | refill
  /-- `ibv_post_srq_recv` fails at the work request of this position, for another
  reason than a full queue. -/
  | refillPost (failsAt : Option Nat)
  | process
  | dispatchReceived (processed : Nat)
  | returnBuffers (buffers : List IbMemReg)

structure RecvWorld where
  dispatcher : RecvDispatcher
  pc : RecvPc
  /-- The exception that has ended the run. -/
  thrown : Option Exception
  /-- Posted to the shared receive queue, completion not polled. -/
  posted : List Nat
  memory : IbMemReg → List UInt8
  /-- The buffers with received data the handler has not been given. -/
  undelivered : List IbMemReg
  /-- The buffers the handler has been given and not returned. -/
  handler : List IbMemReg
  /-- The messages of the polled completions, in polling order. -/
  arrived : List Message
  /-- For each processed completion the entries appended to the ring buffer. -/
  appended : List (List (Entry × List UInt8))
  /-- The entries the handler has been given. -/
  delivered : List (Entry × List UInt8)

namespace RecvWorld

def init (cfg : RecvConfig) : RecvWorld where
  dispatcher := .init cfg
  pc := .poll
  thrown := none
  posted := []
  memory _ := []
  undelivered := []
  handler := []
  arrived := []
  appended := []
  delivered := []

/-- Run a program of the dispatcher; an exception ends the run. -/
def call {α : Type} (w : RecvWorld) (x : EStateM Exception RecvDispatcher α)
    (next : α → RecvWorld → RecvWorld) : RecvWorld :=
  match x.run w.dispatcher with
  | .ok a d => next a { w with dispatcher := d }
  | .error e d => { w with dispatcher := d, thrown := some e }

/-- The message is scattered over the buffers of its work request, which leaves
the receive queue. -/
def arrive (cfg : RecvConfig) (w : RecvWorld) (a : Arrival) : RecvWorld :=
  let sgList := (w.dispatcher.workRequests a.wrId).recvWr.sgList
  { w with
    posted := w.posted.erase a.wrId
    memory := scatter cfg w.memory sgList a.message.bytes
    undelivered := w.undelivered ++ filledBuffers cfg sgList a.message.bytes.length
    arrived := w.arrived ++ [a.message] }

/-- `ibv_post_srq_recv` of the chained work requests, and what follows it in `__Refill`. -/
def post (cfg : RecvConfig) (failsAt : Option Nat) (recvWRs : List Nat) (w : RecvWorld) :
    RecvWorld :=
  match recvWRs with
  | [] => { w with pc := .process 0 }
  | id :: _ =>
    let list := w.dispatcher.workRequestList w.dispatcher.recvWRPool.poolSize id
    match failsAt with
    | some i =>
      { w with
        posted := w.posted ++ list.take i
        thrown := some (.ibException
          ("Posting work request to receive queue failed, num WRQs %d, " ++
            "first failed WRQ idx %d")) }
    | none =>
      if w.posted.length + list.length > cfg.ibSRQSize then
        { w with thrown := some (.ibQueueFull "Receive queue full") }
      else
        { w with
          pc := .process 0
          posted := w.posted ++ list
          dispatcher := { w.dispatcher with
            recvQueuePending := w.dispatcher.recvQueuePending + recvWRs.length } }

/-- The entries with the bytes they stand for. -/
def withBytes (w : RecvWorld) (es : List Entry) : List (Entry × List UInt8) :=
  es.map fun e => (e, e.bytes w.memory)

/-- The entries of the ring buffer beyond the first `used`. -/
def entriesFrom (w : RecvWorld) (used : Nat) : List Entry :=
  (w.dispatcher.ringBuffer.read w.dispatcher.ringBuffer.usedEntries).drop used

/-- The handler is given these entries. -/
def give (es : List Entry) (w : RecvWorld) : RecvWorld :=
  let buffers := es.filterMap Entry.data
  { w with
    handler := w.handler ++ buffers
    undelivered := w.undelivered.filter fun b => b ∉ buffers
    delivered := w.delivered ++ w.withBytes es }

/-- One step.  `ibv_poll_cq` gives at most as many completions as it is asked
for, each of a work request on the receive queue and none twice. -/
def step (cfg : RecvConfig) (w : RecvWorld) (a : RecvAction) : Option RecvWorld :=
  if w.thrown.isSome then none
  else match w.pc, a with
  | .poll, .poll none =>
    if w.dispatcher.pollLimit cfg > 0 then some (w.call (RecvDispatcher.poll cfg none) fun _ w => w)
    else none
  | .poll, .poll (some arrivals) =>
    if arrivals.length ≤ w.dispatcher.pollLimit cfg ∧
        (arrivals.map Arrival.wrId).Subperm w.posted then
      some ((arrivals.foldl (arrive cfg) w).call
        (RecvDispatcher.poll cfg (some (arrivals.map Arrival.toWc)))
        fun _ w => { w with pc := .refill })
    else none
  | .refill, .refill =>
    some (w.call (RecvDispatcher.refillGetBuffers cfg) fun r w =>
      match r with
      | some (toQueueElems, refsMemReg) => { w with pc := .refillPost toQueueElems refsMemReg }
      | none => { w with pc := .process 0 })
  | .refillPost toQueueElems refsMemReg, .refillPost failsAt =>
    some (w.call (RecvDispatcher.refillPrepare cfg toQueueElems refsMemReg) (post cfg failsAt))
  | .process i, .process =>
    match w.dispatcher.workComps[i]? with
    | some wc =>
      some (w.call (RecvDispatcher.processCompletion cfg wc) fun _ w' =>
        { w' with
          pc := .process (i + 1)
          appended := w'.appended ++
            [w'.withBytes (w'.entriesFrom w.dispatcher.ringBuffer.usedEntries)] })
    | none => some { w with pc := .dispatchReceived }
  | .dispatchReceived, .dispatchReceived processed =>
    some (w.call (RecvDispatcher.dispatchReceived processed) fun called w' =>
      let w' := { w' with pc := .poll }
      if called then w'.give (w.dispatcher.ringBuffer.read processed) else w')
  | _, .returnBuffers buffers =>
    if buffers.Subperm w.handler then
      some (w.call (RecvDispatcher.onBufferPool (RecvBufferPool.returnBuffers cfg.arith buffers))
        fun _ w => { w with handler := w.handler.diff buffers })
    else none
  | _, _ => none

end RecvWorld

end Ibdxnet.Msgrc
