import Ibdxnet.Connection.QueuePairs
import Ibdxnet.Connection.Shutdown
import Ibdxnet.Dx.RecvBufferPoolMemory
import Mathlib.Data.FinEnum

/-!
# What a process has allocated

After `Init` a process has a protection domain with the receive buffers
registered, and the queues that all connections share.  Each connection adds a
queue pair on these and its send buffer.  `Shutdown` gives back

    ibv_destroy_srq, ibv_destroy_cq twice     ~msgrc::ConnectionManager
    queue pairs, send buffers                 the close jobs of ~con::ConnectionManager
    ibv_dereg_mr                              ~RecvBufferPool
    ibv_dealloc_pd                            ~IbProtDom

while the job thread goes on.  The verbs do not destroy what is still used
(`Verbs.Documented`), and what they return is not looked at:

    the shared receive queue and the protection domain are given back
        ↔  there is no connection when `Shutdown` comes to the first of these
                                                             (given_back_iff)
-/

namespace Ibdxnet.Msgrc

open Ibdxnet.Con (NodeId Teardown QueuePairs modifyRequired modifyRequired_modifiesQp)

/-! ## Resources -/

structure Resources where
  protDom : Core.IbProtDom
  /-- `m_ibProtDom` is allocated -/
  ibProtDom : Bool
  ibSRQ : Bool
  ibSharedSCQ : Bool
  ibSharedRCQ : Bool
  /-- the region of the receive buffer pool, while it is registered -/
  memoryPool : Option Core.IbMemReg
  /-- the queue pairs, each with the node it is for and the send buffer -/
  queuePairs : List (NodeId × Core.IbMemReg)

/-- Whether these calls succeed, given how many objects are still associated with the one to
be given back. -/
structure Verbs where
  ibvDestroySrq : Nat → Bool
  ibvDestroyCq : Nat → Bool
  ibvDeallocPd : Nat → Bool

/-- What the verbs document of them: a queue that queue pairs are still associated with is not
destroyed, a protection domain that other resources are still associated with not deallocated. -/
structure Verbs.Documented (v : Verbs) : Prop where
  ibvDestroySrq : ∀ n, v.ibvDestroySrq n = true ↔ n = 0
  ibvDestroyCq : ∀ n, v.ibvDestroyCq n = true ↔ n = 0
  ibvDeallocPd : ∀ n, v.ibvDeallocPd n = true ↔ n = 0

/-- What `aligned_alloc` and `ibv_reg_mr` return for a send buffer. -/
structure SendBuffer where
  alignedAlloc : UInt64
  regMr : Option Core.IbvMr

namespace Resources

/-- `Connection::Connection`; `none` if it throws, or is given a queue or a
protection domain that is gone. -/
def newConnection (sendBufferSize : UInt32) (env : SendBuffer) (n : NodeId) (r : Resources) :
    Option Resources :=
  if r.ibProtDom && r.ibSRQ && r.ibSharedSCQ && r.ibSharedRCQ then
    match (do
      let sendBuffer ← Core.IbMemReg.new env.alignedAlloc sendBufferSize.toUInt64 true
      r.protDom.register sendBuffer env.regMr) with
    | .ok (protDom, sendBuffer) =>
      some { r with protDom, queuePairs := r.queuePairs ++ [(n, sendBuffer)] }
    | .error _ => none
  else none

/-- `Connection::~Connection` -/
def deleteConnection (n : NodeId) (r : Resources) : Option Resources :=
  match r.queuePairs.find? fun c => c.1 == n with
  | none => none
  | some (_, sendBuffer) =>
    match r.protDom.deregister sendBuffer 0 with
    | .ok (protDom, _) =>
      some { r with protDom, queuePairs := r.queuePairs.eraseP fun c => c.1 == n }
    | .error _ => none

/-- What a call of the connection manager does to them. -/
def call (sendBufferSize : UInt32) (env : SendBuffer) (r : Resources) :
    Con.Call → Option Resources
  | .createConnection n _ => r.newConnection sendBufferSize env n
  | .close n _ => r.deleteConnection n
  | .connect _ _ | .connectionOpened _ | .nodeConnected _ | .connectionClosed _
  | .nodeDisconnected _ | .nodeInvalidated _ | .nodeDiscovered _ | .discoveryReq _ => some r

/-- `ibv_destroy_srq(m_ibSRQ)` -/
def destroySRQ (v : Verbs) (r : Resources) : Resources :=
  if v.ibvDestroySrq r.queuePairs.length then { r with ibSRQ := false } else r

/-- `ibv_destroy_cq(m_ibSharedSCQ)` -/
def destroySharedSCQ (v : Verbs) (r : Resources) : Resources :=
  if v.ibvDestroyCq r.queuePairs.length then { r with ibSharedSCQ := false } else r

/-- `ibv_destroy_cq(m_ibSharedRCQ)` -/
def destroySharedRCQ (v : Verbs) (r : Resources) : Resources :=
  if v.ibvDestroyCq r.queuePairs.length then { r with ibSharedRCQ := false } else r

/-- `RecvBufferPool::~RecvBufferPool` -/
def deleteRecvBufferPool (r : Resources) : Option Resources :=
  match r.memoryPool with
  | none => none
  | some memoryPool =>
    match r.protDom.deregister memoryPool 0 with
    | .ok (protDom, _) => some { r with protDom, memoryPool := none }
    | .error _ => none

/-- What is in the protection domain: the queue pairs with their send buffers, the shared
receive queue and the receive buffers. -/
def inProtDom (r : Resources) : Nat :=
  2 * r.queuePairs.length + (if r.ibSRQ then 1 else 0) + if r.memoryPool.isSome then 1 else 0

/-- `ibv_dealloc_pd(m_ibProtDom)` -/
def deallocPd (v : Verbs) (r : Resources) : Resources :=
  if v.ibvDeallocPd r.inProtDom then { r with ibProtDom := false } else r

end Resources

/-! ## The system -/

/-- How far `Shutdown` is. -/
inductive Shutdown
  | running
  | destroyedSRQ
  | destroyedSharedSCQ
  | destroyedSharedRCQ
  | deletedRecvBufferPool
  | deletedProtDom
  deriving DecidableEq, Repr

/-- The statements of `Shutdown` that are through. -/
def Shutdown.stage : Shutdown → Nat
  | running => 0
  | destroyedSRQ => 1
  | destroyedSharedSCQ => 2
  | destroyedSharedRCQ => 3
  | deletedRecvBufferPool => 4
  | deletedProtDom => 5

structure MsgrcSystem where
  sendBufferSize : UInt32
  teardown : Teardown
  resources : Resources
  shutdown : Shutdown

namespace MsgrcSystem

inductive Action
  /-- a step of the job thread, of a caller or of `~con::ConnectionManager` -/
  | manager (a : Teardown.Action) (env : SendBuffer)
  /-- the next statement of `Shutdown` -/
  | shutdown

/-- The system after `Init`. -/
def init (p : Con.ConnectionManager.Params) (sendBufferSize : UInt32)
    (protDom : Core.IbProtDom) (b : Dx.BufferMemory) : MsgrcSystem where
  sendBufferSize := sendBufferSize
  teardown := Teardown.init (Con.ConnectionManager.new p)
  resources :=
    { protDom
      ibProtDom := true
      ibSRQ := true
      ibSharedSCQ := true
      ibSharedRCQ := true
      memoryPool := some b.memoryPool
      queuePairs := [] }
  shutdown := .running

/-- A step of the connection manager, and the calls it makes. -/
def manage (s : MsgrcSystem) (a : Teardown.Action) (env : SendBuffer) : Option MsgrcSystem :=
  match s.teardown.step a with
  | none => none
  | some teardown =>
    (Lts.exec (Resources.call s.sendBufferSize env) s.resources
        (teardown.manager.calls.drop s.teardown.manager.calls.length)).map
      fun resources => { s with teardown, resources }

/-- `Shutdown`, from `delete m_connectionManager` on. -/
def shutdownStep (v : Verbs) (s : MsgrcSystem) : Option MsgrcSystem :=
  match s.shutdown with
  | .running =>
    some { s with resources := s.resources.destroySRQ v, shutdown := .destroyedSRQ }
  | .destroyedSRQ =>
    some { s with
      resources := s.resources.destroySharedSCQ v, shutdown := .destroyedSharedSCQ }
  | .destroyedSharedSCQ =>
    some { s with
      resources := s.resources.destroySharedRCQ v, shutdown := .destroyedSharedRCQ }
  | .destroyedSharedRCQ =>
    if s.teardown.destructor = .returned then
      s.resources.deleteRecvBufferPool.map fun resources =>
        { s with resources, shutdown := .deletedRecvBufferPool }
    else none
  | .deletedRecvBufferPool =>
    some { s with resources := s.resources.deallocPd v, shutdown := .deletedProtDom }
  | .deletedProtDom => none

/-- The destructor of the base class follows the one of `msgrc::ConnectionManager`. -/
def step (v : Verbs) (s : MsgrcSystem) : Action → Option MsgrcSystem
  | .manager .destruct env =>
    if s.shutdown = .destroyedSharedRCQ then s.manage .destruct env else none
  | .manager a env => s.manage a env
  | .shutdown => s.shutdownStep v

/-- There is no connection to any node. -/
def Unconnected (s : MsgrcSystem) : Prop := ∀ n, s.teardown.manager.connections n = none

end MsgrcSystem

/-! ## The calls of the job thread and the destructor -/

section
open Ibdxnet.Con (Environment Job)
open Ibdxnet.Con.ConnectionManager (Allocates Dispatched)

variable {m m' : Con.ConnectionManager} {env : Environment} {n : NodeId}

theorem calls_of_allocates (h : Allocates env n m m') : m.calls <+: m'.calls := by
  cases h with
  | kept => exact List.prefix_rfl
  | created => exact List.prefix_append _ _

theorem calls_finishedOrAnswered (m : Con.ConnectionManager) (remote : Con.ConnectionExchgData)
    (c : Con.Connection) (ipv4 : UInt32) :
    m.calls <+: (m.finishedOrAnswered remote c ipv4).calls := by
  unfold Con.ConnectionManager.finishedOrAnswered
  split
  · split
    · exact List.prefix_rfl
    · exact List.prefix_append _ _
  · split
    · exact List.prefix_rfl
    · exact List.prefix_rfl

/-- Calls stay made. -/
theorem calls_of_dispatched {job : Job} (h : Dispatched env m job m') : m.calls <+: m'.calls := by
  cases h with
  | createDropped | connectDropped | discoveredUnknown | closeAgain => exact List.prefix_rfl
  | @create n entry m₁ c hshutdown hinfo halloc hc =>
    show m.calls <+: m₁.calls
    rcases halloc with ⟨halloc, -⟩ | rfl
    · exact calls_of_allocates halloc
    · exact List.prefix_rfl
  | @connect remote entry m₁ c hshutdown hinfo halloc hcreated hc =>
    have hlearn : m₁.calls <+: (m₁.learn remote).calls := by
      unfold Con.ConnectionManager.learn
      cases (m₁.connectionStates remote.header.nodeId).isConnectedToRemote with
      | true => exact List.prefix_rfl
      | false => exact List.prefix_append _ _
    exact ((calls_of_allocates halloc).trans hlearn).trans (calls_finishedOrAnswered _ _ _ _)
  | close hc =>
    unfold Con.ConnectionManager.closed
    simp only [List.append_assoc]
    exact List.prefix_append _ _
  | discover | discovered => exact List.prefix_append _ _

variable {w w' : Teardown} {a : Teardown.Action} {q : QueuePairs}

/-- The queue pairs are driven beside, by any `ibv_modify_qp`: which there are is what counts. -/
theorem driven_of_runLoop (hw : w.Holds) (hm : w.manager.Holds)
    (hq : w.manager.Driven modifyRequired q) (hs : w.runLoop env = some w') :
    w'.manager.Holds ∧ w.manager.calls <+: w'.manager.calls ∧
      ∃ q', w'.manager.Driven modifyRequired q' := by
  cases hw.ran hs with
  | idle | locked | deleted | unlocked => exact ⟨hm, List.prefix_rfl, q, hq⟩
  | popped => exact ⟨hm, List.prefix_rfl, q, hq.exec, hq.links⟩
  | idleHandled _ hd | handled _ _ hd =>
    exact ⟨hm.dispatched hd, calls_of_dispatched hd, hq.dispatched modifyRequired_modifiesQp hm hd⟩

/-- The destructor calls nothing, it adds jobs. -/
theorem calls_of_destruct (hs : w.destruct = some w') : w'.manager.calls = w.manager.calls := by
  cases Teardown.destructs hs with
  | called | skipped | closes | passed | waits | emptied | removedExchange | removed => rfl

theorem driven_of_destruct (hm : w.manager.Holds) (hq : w.manager.Driven modifyRequired q)
    (hs : w.destruct = some w') : w'.manager.Holds ∧ w'.manager.Driven modifyRequired q := by
  cases Teardown.destructs hs with
  | skipped | passed | waits | emptied | removedExchange | removed => exact ⟨hm, hq⟩
  | called | closes => exact ⟨hm, hq.exec, hq.links⟩

theorem driven_of_step (hw : w.Holds) (hm : w.manager.Holds)
    (hq : w.manager.Driven modifyRequired q) (hs : w.step a = some w') :
    w'.manager.Holds ∧ w.manager.calls <+: w'.manager.calls ∧
      ∃ q', w'.manager.Driven modifyRequired q' := by
  cases a with
  | requestCreation n =>
    obtain rfl := Option.some.inj hs
    have hstep : Con.ConnectionManager.step w.manager (.requestCreation n) = some _ := rfl
    exact ⟨hm.step hstep, List.prefix_rfl, hq.step modifyRequired_modifiesQp hm hstep⟩
  | giveUpCreation n =>
    obtain rfl := Option.some.inj hs
    have hstep : Con.ConnectionManager.step w.manager (.giveUpCreation n) = some _ := rfl
    exact ⟨hm.step hstep, List.prefix_rfl, hq.step modifyRequired_modifiesQp hm hstep⟩
  | addJob job =>
    unfold Teardown.step at hs
    simp only [Option.ite_none_left_eq_some, Option.some.injEq] at hs
    obtain ⟨-, rfl⟩ := hs
    exact ⟨hm, List.prefix_rfl, q, hq.exec, hq.links⟩
  | runLoop env => exact driven_of_runLoop hw hm hq hs
  | destruct =>
    obtain ⟨hm', hq'⟩ := driven_of_destruct hm hq hs
    exact ⟨hm', calls_of_destruct hs ▸ List.prefix_rfl, q, hq'⟩

end

/-! ## Queue pairs and send buffers go together -/

namespace Resources

variable {sendBufferSize : UInt32} {env : SendBuffer} {r r' : Resources} {q q' : QueuePairs}
  {n : NodeId} {c : Con.Call}

/-- The queue pairs are those of `q`, and the counters of the protection domain
count their send buffers and the receive buffer pool. -/
structure Matches (sendBufferSize : UInt32) (q : QueuePairs) (r : Resources) : Prop where
  mem_iff : ∀ n, n ∈ r.queuePairs.map Prod.fst ↔ q n ≠ none
  nodup : (r.queuePairs.map Prod.fst).Nodup
  size : ∀ c ∈ r.queuePairs, c.2.size = sendBufferSize.toUInt64 ∧ c.2.size ≠ 0
  regions : r.protDom.memoryRegionsRegistered =
    UInt64.ofNat r.queuePairs.length + r.memoryPool.elim 0 fun _ => 1
  total : r.protDom.totalMemRegistered =
    UInt64.ofNat r.queuePairs.length * sendBufferSize.toUInt64 +
      r.memoryPool.elim 0 Core.IbMemReg.size

/-- What connections leave as it is. -/
structure SameShared (r r' : Resources) : Prop where
  ibProtDom : r'.ibProtDom = r.ibProtDom
  ibSRQ : r'.ibSRQ = r.ibSRQ
  ibSharedSCQ : r'.ibSharedSCQ = r.ibSharedSCQ
  ibSharedRCQ : r'.ibSharedRCQ = r.ibSharedRCQ
  memoryPool : r'.memoryPool = r.memoryPool
  /-- without the shared receive queue there is no further queue pair -/
  gone : r.ibSRQ = false → r.queuePairs = [] → r'.queuePairs = []

theorem SameShared.refl (r : Resources) : r.SameShared r := ⟨rfl, rfl, rfl, rfl, rfl, fun _ h => h⟩

theorem SameShared.trans {r'' : Resources} (h : r.SameShared r') (h' : r'.SameShared r'') :
    r.SameShared r'' where
  ibProtDom := h'.ibProtDom.trans h.ibProtDom
  ibSRQ := h'.ibSRQ.trans h.ibSRQ
  ibSharedSCQ := h'.ibSharedSCQ.trans h.ibSharedSCQ
  ibSharedRCQ := h'.ibSharedRCQ.trans h.ibSharedRCQ
  memoryPool := h'.memoryPool.trans h.memoryPool
  gone hsrq hnone := h'.gone (h.ibSRQ.trans hsrq) (h.gone hsrq hnone)

theorem newConnection_eq_some (h : r.newConnection sendBufferSize env n = some r') :
    r.ibSRQ = true ∧ ∃ sendBuffer : Core.IbMemReg,
      sendBuffer.size = sendBufferSize.toUInt64 ∧ sendBuffer.size ≠ 0 ∧
      r' = { r with
        protDom :=
          { memoryRegionsRegistered := r.protDom.memoryRegionsRegistered + 1
            totalMemRegistered := r.protDom.totalMemRegistered + sendBuffer.size }
        queuePairs := r.queuePairs ++ [(n, sendBuffer)] } := by
  unfold newConnection at h
  split at h
  · next hqueues =>
    split at h
    · next protDom sendBuffer hregister =>
      obtain rfl := Option.some.inj h
      obtain ⟨region, hnew, hregister⟩ := Exec.bind_eq_ok.mp hregister
      obtain ⟨hsize, -, mr, -, rfl, rfl⟩ := Core.IbProtDom.register_eq_ok hregister
      unfold Core.IbMemReg.new at hnew
      split at hnew
      · cases hnew
      · obtain rfl := Except.ok.inj hnew
        simp only [Bool.and_eq_true] at hqueues
        exact ⟨hqueues.1.1.2, { addr := env.alignedAlloc, ibMemReg := some mr, .. }, rfl, hsize,
          rfl⟩
    · cases h
  · cases h

theorem deleteConnection_eq_some (h : r.deleteConnection n = some r') :
    ∃ sendBuffer, (n, sendBuffer) ∈ r.queuePairs ∧
      r' = { r with
        protDom :=
          { memoryRegionsRegistered := r.protDom.memoryRegionsRegistered - 1
            totalMemRegistered := r.protDom.totalMemRegistered - sendBuffer.size }
        queuePairs := r.queuePairs.eraseP fun c => c.1 == n } := by
  unfold deleteConnection at h
  split at h
  · cases h
  · next k sendBuffer hfind =>
    have hmem := List.mem_of_find?_eq_some hfind
    have hk := List.find?_some hfind
    obtain rfl : k = n := beq_iff_eq.mp hk
    split at h
    · next protDom region hderegister =>
      obtain rfl := Option.some.inj h
      obtain ⟨-, rfl, -⟩ := Core.IbProtDom.deregister_eq_ok hderegister
      exact ⟨sendBuffer, hmem, rfl⟩
    · cases h

/-- A new connection: one queue pair and one region more. -/
theorem Matches.newConnection (h : r.Matches sendBufferSize q) (hnone : q n = none)
    {qp : Con.QueuePair} (hr : r.newConnection sendBufferSize env n = some r') :
    r'.Matches sendBufferSize (Function.update q n (some qp)) := by
  obtain ⟨-, sendBuffer, hsize, hpos, rfl⟩ := newConnection_eq_some hr
  have hfresh : n ∉ r.queuePairs.map Prod.fst := by
    rw [h.mem_iff, hnone]
    exact not_not.mpr rfl
  refine ⟨?_, ?_, ?_, ?_, ?_⟩
  · intro k
    rw [List.map_append, List.mem_append, h.mem_iff]
    by_cases hk : k = n
    · subst hk
      simp
    · simp [hk]
  · rw [List.map_append]
    exact List.nodup_append.mpr ⟨h.nodup, List.nodup_singleton _, by
      intro a ha b hb
      obtain rfl := List.mem_singleton.mp hb
      exact fun hab => hfresh (hab ▸ ha)⟩
  · intro c hc
    rcases List.mem_append.mp hc with hc | hc
    · exact h.size c hc
    · obtain rfl := List.mem_singleton.mp hc
      exact ⟨hsize, hpos⟩
  · simp only [List.length_append, List.length_singleton, UInt64.ofNat_add, h.regions]
    grind
  · simp only [List.length_append, List.length_singleton, UInt64.ofNat_add, h.total, hsize]
    grind

/-- A connection less. -/
theorem Matches.deleteConnection (h : r.Matches sendBufferSize q)
    (hr : r.deleteConnection n = some r') :
    r'.Matches sendBufferSize (Function.update q n none) := by
  obtain ⟨sendBuffer, hmem, rfl⟩ := deleteConnection_eq_some hr
  have hkeys : (r.queuePairs.eraseP fun c => c.1 == n).map Prod.fst =
      (r.queuePairs.map Prod.fst).erase n := by
    rw [List.erase_eq_eraseP, List.eraseP_map]
    congr 2
    funext c
    exact Bool.beq_comm
  have hlength : (r.queuePairs.eraseP fun c => c.1 == n).length + 1 = r.queuePairs.length := by
    rw [List.length_eraseP_of_mem hmem (beq_self_eq_true n)]
    exact Nat.sub_add_cancel (List.length_pos_of_mem hmem)
  refine ⟨?_, ?_, ?_, ?_, ?_⟩
  · intro k
    rw [hkeys, h.nodup.mem_erase_iff, h.mem_iff]
    by_cases hk : k = n
    · subst hk
      simp
    · simp [hk]
  · rw [hkeys]
    exact h.nodup.erase n
  · intro c hc
    exact h.size c (List.mem_of_mem_eraseP hc)
  · rw [h.regions, ← hlength, UInt64.ofNat_add]
    grind
  · rw [h.total, ← hlength, UInt64.ofNat_add, (h.size _ hmem).1]
    grind

theorem Matches.call (h : r.Matches sendBufferSize q)
    (hq : QueuePairs.call modifyRequired q c = some q')
    (hr : r.call sendBufferSize env c = some r') :
    r'.Matches sendBufferSize q' ∧ r.SameShared r' := by
  cases c with
  | createConnection n data =>
    unfold QueuePairs.call at hq
    simp only at hq
    split at hq
    · cases hq
    · next hnone =>
      obtain ⟨qp, -, rfl⟩ := Option.map_eq_some_iff.mp hq
      have hr' : r.newConnection sendBufferSize env n = some r' := hr
      refine ⟨h.newConnection hnone hr', ?_⟩
      obtain ⟨hsrq, sendBuffer, -, -, rfl⟩ := newConnection_eq_some hr'
      exact ⟨rfl, rfl, rfl, rfl, rfl, fun hgone => absurd (hsrq.symm.trans hgone) nofun⟩
  | close n force =>
    unfold QueuePairs.call at hq
    simp only at hq
    split at hq
    · cases hq
    · obtain rfl := Option.some.inj hq
      have hr' : r.deleteConnection n = some r' := hr
      refine ⟨h.deleteConnection hr', ?_⟩
      obtain ⟨sendBuffer, hmem, rfl⟩ := deleteConnection_eq_some hr'
      exact ⟨rfl, rfl, rfl, rfl, rfl, fun _ hnone => absurd (hnone ▸ hmem) List.not_mem_nil⟩
  | connect n remote =>
    obtain rfl := Option.some.inj hr
    refine ⟨?_, .refl r⟩
    unfold QueuePairs.call at hq
    simp only at hq
    split at hq
    · cases hq
    · next qp hqp =>
      obtain ⟨qp', -, rfl⟩ := Option.map_eq_some_iff.mp hq
      refine { h with mem_iff := ?_ }
      intro k
      rw [h.mem_iff]
      by_cases hk : k = n
      · subst hk
        simp [hqp]
      · rw [Function.update_of_ne hk]
  | connectionOpened | nodeConnected | connectionClosed | nodeDisconnected | nodeInvalidated
  | nodeDiscovered | discoveryReq =>
    obtain rfl := Option.some.inj hr
    obtain rfl := Option.some.inj hq
    exact ⟨h, .refl r⟩

theorem Matches.calls (h : r.Matches sendBufferSize q) {calls : List Con.Call}
    (hq : Lts.exec (QueuePairs.call modifyRequired) q calls = some q')
    (hr : Lts.exec (Resources.call sendBufferSize env) r calls = some r') :
    r'.Matches sendBufferSize q' ∧ r.SameShared r' := by
  induction calls generalizing r q with
  | nil =>
    obtain rfl := Option.some.inj hq
    obtain rfl := Option.some.inj hr
    exact ⟨h, .refl r⟩
  | cons c calls ih =>
    obtain ⟨q₁, hq₁, hq⟩ := Lts.exec_cons_eq_some.mp hq
    obtain ⟨r₁, hr₁, hr⟩ := Lts.exec_cons_eq_some.mp hr
    obtain ⟨h₁, hsame₁⟩ := h.call hq₁ hr₁
    obtain ⟨h', hsame⟩ := ih h₁ hq hr
    exact ⟨h', hsame₁.trans hsame⟩

theorem deleteRecvBufferPool_eq_some (h : r.deleteRecvBufferPool = some r') :
    ∃ memoryPool : Core.IbMemReg, r.memoryPool = some memoryPool ∧
      r' = { r with
        protDom :=
          { memoryRegionsRegistered := r.protDom.memoryRegionsRegistered - 1
            totalMemRegistered := r.protDom.totalMemRegistered - memoryPool.size }
        memoryPool := none } := by
  unfold deleteRecvBufferPool at h
  split at h
  · cases h
  · next memoryPool hpool =>
    split at h
    · next protDom region hderegister =>
      obtain rfl := Option.some.inj h
      obtain ⟨-, rfl, -⟩ := Core.IbProtDom.deregister_eq_ok hderegister
      exact ⟨memoryPool, hpool, rfl⟩
    · cases h

theorem Matches.deleteRecvBufferPool (h : r.Matches sendBufferSize q)
    (hr : r.deleteRecvBufferPool = some r') : r'.Matches sendBufferSize q := by
  obtain ⟨memoryPool, hpool, rfl⟩ := deleteRecvBufferPool_eq_some hr
  refine ⟨h.mem_iff, h.nodup, h.size, ?_, ?_⟩
  · rw [h.regions, hpool]
    simp only [Option.elim_some, Option.elim_none]
    grind
  · rw [h.total, hpool]
    simp only [Option.elim_some, Option.elim_none]
    grind

/-- What the statements of `Shutdown` so far have given back. -/
structure GivenBack (r : Resources) (shutdown : Shutdown) : Prop where
  running : shutdown = .running → r.ibSRQ = true
  gone : r.ibSRQ = false → r.queuePairs = []
  ibSharedSCQ : r.ibSRQ = false → 2 ≤ shutdown.stage → r.ibSharedSCQ = false
  ibSharedRCQ : r.ibSRQ = false → 3 ≤ shutdown.stage → r.ibSharedRCQ = false
  memoryPool : 4 ≤ shutdown.stage → r.memoryPool = none
  ibProtDom : r.ibProtDom = false → r.ibSRQ = false
  deletedProtDom : r.ibSRQ = false → 5 ≤ shutdown.stage → r.ibProtDom = false

variable {v : Verbs} {shutdown : Shutdown}

theorem GivenBack.same (h : r.GivenBack shutdown) (hsame : r.SameShared r') :
    r'.GivenBack shutdown := by
  refine ⟨?_, ?_, ?_, ?_, ?_, ?_, ?_⟩
  · rw [hsame.ibSRQ]
    exact h.running
  · rw [hsame.ibSRQ]
    exact fun hgone => hsame.gone hgone (h.gone hgone)
  · rw [hsame.ibSRQ, hsame.ibSharedSCQ]
    exact h.ibSharedSCQ
  · rw [hsame.ibSRQ, hsame.ibSharedRCQ]
    exact h.ibSharedRCQ
  · rw [hsame.memoryPool]
    exact h.memoryPool
  · rw [hsame.ibSRQ, hsame.ibProtDom]
    exact h.ibProtDom
  · rw [hsame.ibSRQ, hsame.ibProtDom]
    exact h.deletedProtDom

theorem destroySRQ_eq (hv : v.Documented) (r : Resources) :
    r.destroySRQ v = { r with ibSRQ := r.ibSRQ && !r.queuePairs.isEmpty } := by
  unfold destroySRQ
  simp only [hv.ibvDestroySrq, List.length_eq_zero_iff]
  obtain ⟨protDom, ibProtDom, ibSRQ, ibSharedSCQ, ibSharedRCQ, memoryPool, queuePairs⟩ := r
  cases queuePairs <;> simp

theorem destroySharedSCQ_eq (hv : v.Documented) (r : Resources) :
    r.destroySharedSCQ v = { r with ibSharedSCQ := r.ibSharedSCQ && !r.queuePairs.isEmpty } := by
  unfold destroySharedSCQ
  simp only [hv.ibvDestroyCq, List.length_eq_zero_iff]
  obtain ⟨protDom, ibProtDom, ibSRQ, ibSharedSCQ, ibSharedRCQ, memoryPool, queuePairs⟩ := r
  cases queuePairs <;> simp

theorem destroySharedRCQ_eq (hv : v.Documented) (r : Resources) :
    r.destroySharedRCQ v = { r with ibSharedRCQ := r.ibSharedRCQ && !r.queuePairs.isEmpty } := by
  unfold destroySharedRCQ
  simp only [hv.ibvDestroyCq, List.length_eq_zero_iff]
  obtain ⟨protDom, ibProtDom, ibSRQ, ibSharedSCQ, ibSharedRCQ, memoryPool, queuePairs⟩ := r
  cases queuePairs <;> simp

theorem deallocPd_eq (hv : v.Documented) (r : Resources) :
    r.deallocPd v = { r with
      ibProtDom := r.ibProtDom && !(r.queuePairs.isEmpty && !r.ibSRQ && r.memoryPool.isNone) } := by
  unfold deallocPd inProtDom
  simp only [hv.ibvDeallocPd]
  obtain ⟨protDom, ibProtDom, ibSRQ, ibSharedSCQ, ibSharedRCQ, memoryPool, queuePairs⟩ := r
  cases queuePairs <;> cases ibSRQ <;> cases memoryPool <;> simp

theorem GivenBack.destroySRQ (hv : v.Documented) (h : r.GivenBack .running) :
    (r.destroySRQ v).GivenBack .destroyedSRQ := by
  have hsrq := h.running rfl
  rw [destroySRQ_eq hv, hsrq]
  refine ⟨nofun, fun hgone => ?_, fun _ => nofun, fun _ => nofun, nofun, fun hgone => ?_,
    fun _ => nofun⟩
  · simpa using hgone
  · rw [h.ibProtDom hgone] at hsrq
    cases hsrq

theorem GivenBack.destroySharedSCQ (hv : v.Documented) (h : r.GivenBack .destroyedSRQ) :
    (r.destroySharedSCQ v).GivenBack .destroyedSharedSCQ := by
  rw [destroySharedSCQ_eq hv]
  refine ⟨nofun, h.gone, fun hsrq _ => ?_, fun _ => nofun, nofun, h.ibProtDom, fun _ => nofun⟩
  simp [h.gone hsrq]

theorem GivenBack.destroySharedRCQ (hv : v.Documented) (h : r.GivenBack .destroyedSharedSCQ) :
    (r.destroySharedRCQ v).GivenBack .destroyedSharedRCQ := by
  rw [destroySharedRCQ_eq hv]
  refine ⟨nofun, h.gone, fun hsrq _ => h.ibSharedSCQ hsrq (by decide), fun hsrq _ => ?_, nofun,
    h.ibProtDom, fun _ => nofun⟩
  simp [h.gone hsrq]

theorem GivenBack.deleteRecvBufferPool (h : r.GivenBack .destroyedSharedRCQ)
    (hr : r.deleteRecvBufferPool = some r') : r'.GivenBack .deletedRecvBufferPool := by
  obtain ⟨memoryPool, -, rfl⟩ := deleteRecvBufferPool_eq_some hr
  exact ⟨nofun, h.gone, fun hsrq _ => h.ibSharedSCQ hsrq (by decide),
    fun hsrq _ => h.ibSharedRCQ hsrq (by decide), fun _ => rfl, h.ibProtDom, fun _ => nofun⟩

theorem GivenBack.deallocPd (hv : v.Documented) (h : r.GivenBack .deletedRecvBufferPool) :
    (r.deallocPd v).GivenBack .deletedProtDom := by
  have hpool := h.memoryPool (by decide)
  rw [deallocPd_eq hv, hpool]
  refine ⟨nofun, h.gone, fun hsrq _ => h.ibSharedSCQ hsrq (by decide),
    fun hsrq _ => h.ibSharedRCQ hsrq (by decide), fun _ => rfl, fun hgone => ?_, fun hsrq _ => ?_⟩
  · by_contra hsrq
    rw [Bool.not_eq_false] at hsrq
    rw [hsrq] at hgone
    simp only [Bool.not_true, Bool.and_false, Bool.false_and, Bool.not_false, Bool.and_true]
      at hgone
    exact absurd (hsrq.symm.trans (h.ibProtDom hgone)) nofun
  · have hsrq' : r.ibSRQ = false := hsrq
    simp [h.gone hsrq', hsrq']

end Resources

/-! ## What holds in every state -/

namespace MsgrcSystem

variable {v : Verbs} {s s' : MsgrcSystem} {a : Action}

structure Holds (s : MsgrcSystem) : Prop where
  teardown : s.teardown.Holds
  manager : s.teardown.manager.Holds
  driven : ∃ q, s.teardown.manager.Driven modifyRequired q ∧
    s.resources.Matches s.sendBufferSize q
  givenBack : s.resources.GivenBack s.shutdown

theorem Holds.manage (h : s.Holds) {a : Teardown.Action} {env : SendBuffer}
    (hs : s.manage a env = some s') : s'.Holds ∧ s'.shutdown = s.shutdown ∧
      s'.resources.ibSRQ = s.resources.ibSRQ := by
  unfold MsgrcSystem.manage at hs
  split at hs
  · cases hs
  · next w hw =>
    obtain ⟨r, hr, rfl⟩ := Option.map_eq_some_iff.mp hs
    obtain ⟨q, hq, hmatches⟩ := h.driven
    obtain ⟨hm, ⟨calls, hcalls⟩, q', hq'⟩ := driven_of_step h.teardown h.manager hq hw
    rw [← hcalls, List.drop_left] at hr
    have hexec : Lts.exec (QueuePairs.call modifyRequired) q calls = some q' := by
      rw [← QueuePairs.exec_append hq.exec, hcalls]
      exact hq'.exec
    obtain ⟨hmatches', hsame⟩ := hmatches.calls hexec hr
    exact ⟨⟨h.teardown.step hw, hm, ⟨q', hq', hmatches'⟩, h.givenBack.same hsame⟩, rfl,
      hsame.ibSRQ⟩

/-- One statement of `Shutdown`. -/
theorem Holds.shutdownStep (hv : v.Documented) (h : s.Holds) (hs : s.shutdownStep v = some s') :
    s'.Holds ∧ s'.shutdown ≠ .running ∧
      (s.shutdown ≠ .running → s'.resources.ibSRQ = s.resources.ibSRQ) := by
  obtain ⟨q, hq, hmatches⟩ := h.driven
  have hback := h.givenBack
  unfold MsgrcSystem.shutdownStep at hs
  split at hs
  · next hshutdown =>
    obtain rfl := Option.some.inj hs
    rw [hshutdown] at hback
    refine ⟨⟨h.teardown, h.manager, ⟨q, hq, ?_⟩, hback.destroySRQ hv⟩, nofun,
      fun hnot => absurd hshutdown hnot⟩
    unfold Resources.destroySRQ
    split
    · exact { hmatches with }
    · exact hmatches
  · next hshutdown =>
    obtain rfl := Option.some.inj hs
    rw [hshutdown] at hback
    refine ⟨⟨h.teardown, h.manager, ⟨q, hq, ?_⟩, hback.destroySharedSCQ hv⟩, nofun, fun _ => ?_⟩
    · unfold Resources.destroySharedSCQ
      split
      · exact { hmatches with }
      · exact hmatches
    · unfold Resources.destroySharedSCQ
      split <;> rfl
  · next hshutdown =>
    obtain rfl := Option.some.inj hs
    rw [hshutdown] at hback
    refine ⟨⟨h.teardown, h.manager, ⟨q, hq, ?_⟩, hback.destroySharedRCQ hv⟩, nofun, fun _ => ?_⟩
    · unfold Resources.destroySharedRCQ
      split
      · exact { hmatches with }
      · exact hmatches
    · unfold Resources.destroySharedRCQ
      split <;> rfl
  · next hshutdown =>
    split at hs
    · obtain ⟨r, hr, rfl⟩ := Option.map_eq_some_iff.mp hs
      rw [hshutdown] at hback
      refine ⟨⟨h.teardown, h.manager, ⟨q, hq, hmatches.deleteRecvBufferPool hr⟩,
        hback.deleteRecvBufferPool hr⟩, nofun, fun _ => ?_⟩
      obtain ⟨memoryPool, -, rfl⟩ := Resources.deleteRecvBufferPool_eq_some hr
      rfl
    · cases hs
  · next hshutdown =>
    obtain rfl := Option.some.inj hs
    rw [hshutdown] at hback
    refine ⟨⟨h.teardown, h.manager, ⟨q, hq, ?_⟩, hback.deallocPd hv⟩, nofun, fun _ => ?_⟩
    · unfold Resources.deallocPd
      split
      · exact { hmatches with }
      · exact hmatches
    · unfold Resources.deallocPd
      split <;> rfl
  · cases hs

/-- The shared receive queue is destroyed by the first statement or not at all. -/
theorem Holds.step (hv : v.Documented) (h : s.Holds) (hs : s.step v a = some s') :
    s'.Holds ∧ (s.shutdown ≠ .running →
      s'.shutdown ≠ .running ∧ s'.resources.ibSRQ = s.resources.ibSRQ) := by
  have hmanage : ∀ {b env}, s.manage b env = some s' → s'.Holds ∧ (s.shutdown ≠ .running →
      s'.shutdown ≠ .running ∧ s'.resources.ibSRQ = s.resources.ibSRQ) := by
    intro b env hb
    obtain ⟨h', hshutdown, hsrq⟩ := h.manage hb
    exact ⟨h', fun hnot => ⟨hshutdown ▸ hnot, hsrq⟩⟩
  cases a with
  | shutdown =>
    obtain ⟨h', hnot, hsrq⟩ := h.shutdownStep hv hs
    exact ⟨h', fun hrunning => ⟨hnot, hsrq hrunning⟩⟩
  | manager b env =>
    cases b with
    | destruct =>
      unfold MsgrcSystem.step at hs
      simp only [Option.ite_none_right_eq_some] at hs
      exact hmanage hs.2
    | requestCreation | giveUpCreation | addJob | runLoop =>
      simp only [MsgrcSystem.step] at hs
      exact hmanage hs

section
variable {totalPoolSize : UInt64} {recvBufferSize sendBufferSize : UInt32} {alignedAlloc : UInt64}
  {regMr : Option Core.IbvMr} {b : Dx.BufferMemory} {protDom : Core.IbProtDom}

theorem holds_init (p : Con.ConnectionManager.Params)
    (hnew : Dx.BufferMemory.new totalPoolSize recvBufferSize {} alignedAlloc regMr =
      .ok (b, protDom)) : (init p sendBufferSize protDom b).Holds where
  teardown := Teardown.holds_init nofun
  manager := Con.ConnectionManager.holds_new p
  driven := by
    obtain ⟨-, -, -, -, -, -, rfl⟩ := Dx.BufferMemory.new_eq_ok hnew
    refine ⟨_, Con.ConnectionManager.driven_new p, ⟨?_, List.nodup_nil, nofun, rfl, ?_⟩⟩
    · intro n
      exact iff_of_false List.not_mem_nil fun hne => hne rfl
    · show 0 + b.memoryPool.size = 0 * sendBufferSize.toUInt64 + b.memoryPool.size
      rw [UInt64.zero_mul]
  givenBack := ⟨fun _ => rfl, nofun, nofun, nofun, nofun, nofun, nofun⟩

/-- The connections are those with a queue pair. -/
theorem Holds.unconnected_iff (h : s.Holds) : s.Unconnected ↔ s.resources.queuePairs = [] := by
  obtain ⟨q, hq, hmatches⟩ := h.driven
  rw [← List.map_eq_nil_iff, List.eq_nil_iff_forall_not_mem]
  apply forall_congr'
  intro n
  rw [hmatches.mem_iff, not_not]
  constructor
  · exact (hq.links n).none
  · intro hnone
    by_contra hsome
    obtain ⟨c, hc⟩ := Option.ne_none_iff_exists'.mp hsome
    obtain ⟨qp, hqp, -⟩ := (hq.links n).some c hc
    rw [hnone] at hqp
    cases hqp

/-- Once the pool is deleted the protection domain counts the send buffers of the
connections that are left. -/
theorem Holds.warns_iff (h : s.Holds) (hpool : s.resources.memoryPool = none) :
    s.resources.protDom.warns = true ↔ ¬ s.Unconnected := by
  obtain ⟨q, hq, hmatches⟩ := h.driven
  have htotal := hmatches.total
  rw [hpool, Option.elim_none] at htotal
  have hlength : s.resources.queuePairs.length ≤ 2 ^ 16 := by
    have hle := hmatches.nodup.length_le_card
    rw [List.length_map, ← FinEnum.card_eq_fintypeCard, FinEnum.card_UInt16] at hle
    exact hle
  unfold Core.IbProtDom.warns
  rw [h.unconnected_iff, decide_eq_true_iff, htotal, UInt64.add_zero]
  constructor
  · intro hpos hnil
    rw [hnil] at hpos
    simp at hpos
  · intro hne
    obtain ⟨c, hc⟩ := List.exists_mem_of_ne_nil _ hne
    obtain ⟨hsize, hpos⟩ := hmatches.size c hc
    have hlen := List.length_pos_of_mem hc
    have hlt := UInt32.toNat_lt s.sendBufferSize
    have hsizePos : 0 < s.sendBufferSize.toNat := by
      apply Nat.pos_of_ne_zero
      intro hzero
      rw [hsize, Ne, ← UInt64.toNat_inj, UInt32.toNat_toUInt64, hzero] at hpos
      exact hpos rfl
    have hmul : s.resources.queuePairs.length * s.sendBufferSize.toNat < 2 ^ 64 := by
      have hle := Nat.mul_le_mul hlength hlt.le
      omega
    show 0 < UInt64.ofNat _ * _
    rw [UInt64.lt_iff_toNat_lt, UInt64.toNat_mul, UInt64.toNat_ofNat_of_lt' (by
      show _ < 2 ^ 64
      omega), UInt32.toNat_toUInt64, Nat.mod_eq_of_lt hmul]
    exact Nat.mul_pos hlen hsizePos

/-- **The shared receive queue and the protection domain are given back exactly if
there is no connection when `Shutdown` comes to the queues**, whatever the job
thread and the close jobs do then; and the protection domain warns exactly if a
connection is left in the end. -/
theorem given_back_iff (hv : v.Documented) {p : Con.ConnectionManager.Params}
    (hnew : Dx.BufferMemory.new totalPoolSize recvBufferSize {} alignedAlloc regMr =
      .ok (b, protDom))
    {as bs : List Action} {s₀ s₁ s : MsgrcSystem}
    (h₀ : Lts.exec (step v) (init p sendBufferSize protDom b) as = some s₀)
    (hrunning : s₀.shutdown = .running) (h₁ : s₀.step v .shutdown = some s₁)
    (h : Lts.exec (step v) s₁ bs = some s) (hdone : s.shutdown = .deletedProtDom) :
    (s.resources.ibSRQ = false ↔ s₀.Unconnected) ∧
      (s.resources.ibProtDom = false ↔ s₀.Unconnected) ∧
      (s₀.Unconnected → s.resources.ibSharedSCQ = false ∧ s.resources.ibSharedRCQ = false ∧
        s.Unconnected) ∧
      (s.resources.protDom.warns = true ↔ ¬ s.Unconnected) := by
  have hholds₀ : s₀.Holds :=
    Lts.exec_invariant (I := Holds) (fun _ _ _ hi hs => (hi.step hv hs).1) (holds_init p hnew) h₀
  -- the first statement decides about the shared receive queue
  have hfirst : s₁.shutdown ≠ .running ∧ (s₁.resources.ibSRQ = false ↔ s₀.Unconnected) := by
    have hsrq := hholds₀.givenBack.running hrunning
    change s₀.shutdownStep v = some s₁ at h₁
    unfold shutdownStep at h₁
    rw [hrunning] at h₁
    obtain rfl := Option.some.inj h₁
    refine ⟨nofun, ?_⟩
    rw [hholds₀.unconnected_iff, Resources.destroySRQ_eq hv, hsrq, ← List.isEmpty_iff]
    simp
  have hlast : s.Holds ∧ s.shutdown ≠ .running ∧
      (s.resources.ibSRQ = false ↔ s₀.Unconnected) := by
    refine Lts.exec_invariant
      (I := fun t : MsgrcSystem => t.Holds ∧ t.shutdown ≠ .running ∧
        (t.resources.ibSRQ = false ↔ s₀.Unconnected))
      (fun t _ t' hi hs => ?_) ⟨(hholds₀.step hv h₁).1, hfirst⟩ h
    obtain ⟨ht', hkept⟩ := hi.1.step hv hs
    obtain ⟨hnot, hsrq⟩ := hkept hi.2.1
    rw [hsrq]
    exact ⟨ht', hnot, hi.2.2⟩
  obtain ⟨hholds, -, hiff⟩ := hlast
  have hback := hholds.givenBack
  rw [hdone] at hback
  refine ⟨hiff, ?_, ?_, hholds.warns_iff (hback.memoryPool (by decide))⟩
  · rw [← hiff]
    exact ⟨hback.ibProtDom, fun hsrq => hback.deletedProtDom hsrq (by decide)⟩
  · intro hnone
    have hsrq := hiff.mpr hnone
    exact ⟨hback.ibSharedSCQ hsrq (by decide), hback.ibSharedRCQ hsrq (by decide),
      hholds.unconnected_iff.mpr (hback.gone hsrq)⟩

end

/-! ### A process that never had a connection -/

/-- The destructor of the base class, alone. -/
theorem exec_destruct {env : SendBuffer} (hs : s.shutdown = .destroyedSharedRCQ) {k : Nat}
    {w : Teardown} (h : Lts.exec Teardown.step s.teardown (List.replicate k .destruct) = some w) :
    Lts.exec (step v) s (List.replicate k (.manager .destruct env)) =
      some { s with teardown := w } := by
  induction k generalizing s with
  | zero =>
    obtain rfl := Option.some.inj h
    rfl
  | succ k ih =>
    rw [List.replicate_succ] at h ⊢
    obtain ⟨w₁, hw₁, h⟩ := Lts.exec_cons_eq_some.mp h
    have hstep : s.step v (.manager .destruct env) = some { s with teardown := w₁ } := by
      have hcalls : w₁.manager.calls = s.teardown.manager.calls := calls_of_destruct hw₁
      simp only [step, hs, if_true, manage, hw₁, hcalls, List.drop_length, Lts.exec_nil,
        Option.map_some]
    exact Lts.exec_cons_eq_some.mpr ⟨_, hstep, ih (s := { s with teardown := w₁ }) hs h⟩

/-- It finds no connection in the table, and the queue empty. -/
theorem exec_destruct_new (p : Con.ConnectionManager.Params) :
    ∃ w, Lts.exec Teardown.step (Teardown.init (.new p))
        (List.replicate (1 + Con.nodeIdMaxNumNodes + 6) .destruct) = some w ∧
      w.destructor = .returned := by
  let w : Teardown := { Teardown.init (.new p) with
    manager := { Con.ConnectionManager.new p with flagShutdown := true }
    destructor := .closing 0 }
  have hloop : Lts.exec Teardown.step w (List.replicate Con.nodeIdMaxNumNodes .destruct) =
      some { w with destructor := .closing (0 + Con.nodeIdMaxNumNodes) } :=
    (Teardown.exec_skipped rfl (Nat.le_refl _) fun _ _ _ => rfl).1
  rw [List.replicate_add, List.replicate_add]
  exact ⟨_, Lts.exec_append_eq_some.mpr ⟨_, Lts.exec_append_eq_some.mpr
    ⟨w, rfl, hloop⟩, rfl⟩, rfl⟩

/-- The queues are destroyed, the destructor of the base class is through. -/
def exampleDestroyed (protDom : Core.IbProtDom) (b : Dx.BufferMemory) : MsgrcSystem :=
  let s := init Con.ConnectionManager.exampleParams 8 protDom b
  { s with
    resources := { s.resources with ibSRQ := false, ibSharedSCQ := false, ibSharedRCQ := false }
    shutdown := .destroyedSharedRCQ }

/-- The verbs as they are documented. -/
def exampleVerbs : Verbs := ⟨(· == 0), (· == 0), (· == 0)⟩

theorem exampleVerbs_documented : exampleVerbs.Documented :=
  ⟨fun _ => beq_iff_eq, fun _ => beq_iff_eq, fun _ => beq_iff_eq⟩

theorem given_back_iff_new : ∃ b protDom s₁ bs s,
    Dx.BufferMemory.new 10 4 {} 4096 (some ⟨1, 2⟩) = .ok (b, protDom) ∧
      (init Con.ConnectionManager.exampleParams 8 protDom b).step exampleVerbs .shutdown = some s₁ ∧
      Lts.exec (step exampleVerbs) s₁ bs = some s ∧ s.resources.ibProtDom = false ∧
      s.resources.protDom.warns = false := by
  obtain ⟨b, protDom, hnew, hsize⟩ : ∃ b protDom,
      Dx.BufferMemory.new 10 4 {} 4096 (some ⟨1, 2⟩) = .ok (b, protDom) ∧ b.memoryPool.size = 8 :=
    ⟨_, _, rfl, rfl⟩
  obtain ⟨w, hw, hreturned⟩ := exec_destruct_new Con.ConnectionManager.exampleParams
  obtain ⟨s₁, hfirst, hqueues⟩ : ∃ s₁,
      (init Con.ConnectionManager.exampleParams 8 protDom b).step exampleVerbs .shutdown = some s₁ ∧
        Lts.exec (step exampleVerbs) s₁ [.shutdown, .shutdown] =
          some (exampleDestroyed protDom b) :=
    ⟨_, rfl, rfl⟩
  have hbase := @exec_destruct exampleVerbs (exampleDestroyed protDom b) ⟨0, none⟩ rfl _ _ hw
  obtain ⟨s, hlast, hdone⟩ : ∃ s,
      Lts.exec (step exampleVerbs) { exampleDestroyed protDom b with teardown := w }
        [.shutdown, .shutdown] = some s ∧ s.shutdown = .deletedProtDom := by
    have hpool : ∃ r, (exampleDestroyed protDom b).resources.deleteRecvBufferPool = some r := by
      have hregion : (exampleDestroyed protDom b).resources.memoryPool = some b.memoryPool := rfl
      have hnonzero : ¬ (8 : UInt64) = 0 := by decide
      simp only [Resources.deleteRecvBufferPool, hregion, Core.IbProtDom.deregister, hsize,
        hnonzero, if_false, ne_eq, not_true]
      exact ⟨_, rfl⟩
    obtain ⟨r, hr⟩ := hpool
    have hdelete : step exampleVerbs { exampleDestroyed protDom b with teardown := w } .shutdown =
        some { exampleDestroyed protDom b with
          teardown := w, resources := r, shutdown := .deletedRecvBufferPool } := by
      show (if w.destructor = .returned then _ else _) = _
      rw [if_pos hreturned, hr]
      rfl
    exact ⟨_, Lts.exec_cons_eq_some.mpr ⟨_, hdelete, rfl⟩, rfl⟩
  have hrun := Lts.exec_append_eq_some.mpr ⟨_, hqueues, Lts.exec_append_eq_some.mpr
    ⟨_, hbase, hlast⟩⟩
  obtain ⟨-, hprotDom, hleft, hwarns⟩ :=
    given_back_iff exampleVerbs_documented hnew (Lts.exec_nil _) rfl hfirst hrun hdone
  have hnone : (init Con.ConnectionManager.exampleParams 8 protDom b).Unconnected := fun _ => rfl
  refine ⟨b, protDom, s₁, _, s, hnew, hfirst, hrun, hprotDom.mpr hnone, ?_⟩
  rw [Bool.eq_false_iff, Ne, hwarns, not_not]
  exact (hleft hnone).2.2

end MsgrcSystem

end Ibdxnet.Msgrc
