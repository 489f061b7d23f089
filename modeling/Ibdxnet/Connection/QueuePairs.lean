import Ibdxnet.Connection.Quiescence

/-!
# The queue pairs under the connections

`msgrc::Connection` owns one reliable queue pair and drives it through the
states of the verbs:

    constructor   __CreateQP, __SetInitStateQP        RESET → INIT
    Connect       __SetReadyToRecv, __SetReadyToSend  INIT → RTR → RTS
    destructor    ibv_destroy_qp

`ibv_modify_qp` is any function that takes the transitions the verbs document, each
from the state before it and with the attributes it requires (`ModifiesQp`).
`QueuePairs.exec` replays the calls a connection manager has made on the queue
pairs of its connections.

    no call of a run finds its queue pair in the wrong state   (queue_pairs_driven)
    a connection that can be handed out has both queue pairs
      ready to send, each pointing to the other one            (queue_pairs_paired)
-/

namespace Ibdxnet.Con

open Flags
open ConnectionManager (Params)

/-! ## The verbs -/

/-- The `ibv_qp_state` values a connection uses. -/
inductive IbvQpState
  | reset
  | init
  | rtr
  | rts
  deriving DecidableEq, Repr

/-- `ibv_qp_attr_mask` -/
inductive IbvQpAttrMask
  | state
  | pkeyIndex
  | port
  | accessFlags
  | av
  | pathMtu
  | destQpn
  | rqPsn
  | maxDestRdAtomic
  | minRnrTimer
  | timeout
  | retryCnt
  | rnrRetry
  | sqPsn
  | maxQpRdAtomic
  deriving DecidableEq, Repr

/-- `ibv_ah_attr`, the fields that are set. -/
structure IbvAhAttr where
  isGlobal : UInt8 := 0
  dlid : UInt16 := 0
  sl : UInt8 := 0
  srcPathBits : UInt8 := 0
  portNum : UInt8 := 0
  deriving DecidableEq, Repr

/-- `ibv_qp_attr` after `memset`, the fields that are set. -/
structure IbvQpAttr where
  qpState : IbvQpState := .reset
  pkeyIndex : UInt16 := 0
  portNum : UInt8 := 0
  qpAccessFlags : UInt32 := 0
  ahAttr : IbvAhAttr := {}
  pathMtu : UInt32 := 0
  destQpNum : UInt32 := 0
  rqPsn : UInt32 := 0
  maxDestRdAtomic : UInt8 := 0
  minRnrTimer : UInt8 := 0
  timeout : UInt8 := 0
  retryCnt : UInt8 := 0
  rnrRetry : UInt8 := 0
  sqPsn : UInt32 := 0
  maxRdAtomic : UInt8 := 0
  deriving DecidableEq, Repr

structure IbvQp where
  qpNum : UInt32
  attr : IbvQpAttr
  deriving DecidableEq, Repr

/-- `ibv_modify_qp`, with the queue pair behind the call; `none` for an error. -/
abbrev IbvModifyQp := IbvQp → IbvQpAttr → List IbvQpAttrMask → Option IbvQp

/-- The attributes required by the transitions of a reliable queue pair that a connection
uses. -/
def requiredAttrs : IbvQpState → IbvQpState → Option (List IbvQpAttrMask)
  | .reset, .init => some [.state, .pkeyIndex, .port, .accessFlags]
  | .init, .rtr =>
    some [.state, .av, .pathMtu, .destQpn, .rqPsn, .maxDestRdAtomic, .minRnrTimer]
  | .rtr, .rts => some [.state, .timeout, .retryCnt, .rnrRetry, .sqPsn, .maxQpRdAtomic]
  | _, _ => none

/-- The attributes `attr` in the mask, the others as they were. -/
def IbvQpAttr.override (old attr : IbvQpAttr) (mask : List IbvQpAttrMask) : IbvQpAttr where
  qpState := if .state ∈ mask then attr.qpState else old.qpState
  pkeyIndex := if .pkeyIndex ∈ mask then attr.pkeyIndex else old.pkeyIndex
  portNum := if .port ∈ mask then attr.portNum else old.portNum
  qpAccessFlags := if .accessFlags ∈ mask then attr.qpAccessFlags else old.qpAccessFlags
  ahAttr := if .av ∈ mask then attr.ahAttr else old.ahAttr
  pathMtu := if .pathMtu ∈ mask then attr.pathMtu else old.pathMtu
  destQpNum := if .destQpn ∈ mask then attr.destQpNum else old.destQpNum
  rqPsn := if .rqPsn ∈ mask then attr.rqPsn else old.rqPsn
  maxDestRdAtomic := if .maxDestRdAtomic ∈ mask then attr.maxDestRdAtomic else old.maxDestRdAtomic
  minRnrTimer := if .minRnrTimer ∈ mask then attr.minRnrTimer else old.minRnrTimer
  timeout := if .timeout ∈ mask then attr.timeout else old.timeout
  retryCnt := if .retryCnt ∈ mask then attr.retryCnt else old.retryCnt
  rnrRetry := if .rnrRetry ∈ mask then attr.rnrRetry else old.rnrRetry
  sqPsn := if .sqPsn ∈ mask then attr.sqPsn else old.sqPsn
  maxRdAtomic := if .maxQpRdAtomic ∈ mask then attr.maxRdAtomic else old.maxRdAtomic

/-- What the verbs document of `ibv_modify_qp`, for attributes the device supports: these
transitions are taken with the attributes they require, and a transition sets the attributes
in its mask and no others. -/
structure ModifiesQp (ibvModifyQp : IbvModifyQp) : Prop where
  takes : ∀ {qp attr mask}, requiredAttrs qp.attr.qpState attr.qpState = some mask →
    ∃ qp', ibvModifyQp qp attr mask = some qp'
  sets : ∀ {qp qp' attr mask}, ibvModifyQp qp attr mask = some qp' →
    qp'.qpNum = qp.qpNum ∧ qp'.attr = qp.attr.override attr mask

/-- A function that takes these transitions, with exactly the attributes they require. -/
def modifyRequired : IbvModifyQp := fun qp attr mask =>
  if requiredAttrs qp.attr.qpState attr.qpState = some mask then
    some { qp with attr := qp.attr.override attr mask }
  else none

theorem modifyRequired_modifiesQp : ModifiesQp modifyRequired where
  takes hmask := ⟨_, if_pos hmask⟩
  sets h := by
    unfold modifyRequired at h
    split at h
    · obtain rfl := Option.some.inj h
      exact ⟨rfl, rfl⟩
    · cases h

/-! ## The queue pair of a connection -/

/-- `DEFAULT_IB_PORT` -/
def defaultIbPort : UInt8 := 1

/-- `IB_QOS_LEVEL` -/
def ibQosLevel : UInt8 := 0

/-- `m_ibQP`, `m_ibPsn`, `m_remoteConnectionHeader` and `m_remoteConnectionData`. -/
structure QueuePair where
  ibQP : IbvQp
  ibPsn : UInt32
  remoteConnectionHeader : RemoteConnectionHeader := {}
  remoteConnectionData : RemoteConnectionData := {}
  deriving DecidableEq, Repr

namespace QueuePair

/-- `__CreateQP`: a new queue pair is in state RESET. -/
def createQP (qpNum ibPsn : UInt32) : QueuePair where
  ibQP := { qpNum, attr := {} }
  ibPsn := ibPsn

section
variable (ibvModifyQp : IbvModifyQp)

/-- `ibv_modify_qp(m_ibQP, ..)` -/
def modify (q : QueuePair) (attr : IbvQpAttr) (mask : List IbvQpAttrMask) : Option QueuePair :=
  (ibvModifyQp q.ibQP attr mask).map fun qp => { q with ibQP := qp }

/-- `__SetInitStateQP` -/
def setInitStateQP (q : QueuePair) : Option QueuePair :=
  q.modify ibvModifyQp
    { qpState := .init
      pkeyIndex := 0
      portNum := defaultIbPort
      -- IBV_ACCESS_REMOTE_WRITE | IBV_ACCESS_LOCAL_WRITE
      qpAccessFlags := 2 ||| 1 }
    [.state, .pkeyIndex, .port, .accessFlags]

/-- `__SetReadyToRecv` -/
def setReadyToRecv (q : QueuePair) : Option QueuePair :=
  q.modify ibvModifyQp
    { qpState := .rtr
      -- IBV_MTU_4096
      pathMtu := 5
      destQpNum := q.remoteConnectionData.physicalQPId
      rqPsn := q.remoteConnectionData.psn
      maxDestRdAtomic := 1
      minRnrTimer := 1
      ahAttr :=
        { isGlobal := 0
          dlid := q.remoteConnectionHeader.lid
          sl := ibQosLevel
          srcPathBits := 0
          portNum := defaultIbPort } }
    [.state, .av, .pathMtu, .destQpn, .rqPsn, .maxDestRdAtomic, .minRnrTimer]

/-- `__SetReadyToSend` -/
def setReadyToSend (q : QueuePair) : Option QueuePair :=
  q.modify ibvModifyQp
    { qpState := .rts
      timeout := 14
      retryCnt := 7
      rnrRetry := 7
      sqPsn := q.ibPsn
      maxRdAtomic := 1 }
    [.state, .timeout, .retryCnt, .rnrRetry, .sqPsn, .maxQpRdAtomic]

/-- The verbs calls of the constructor. -/
def new (qpNum ibPsn : UInt32) : Option QueuePair :=
  (createQP qpNum ibPsn).setInitStateQP ibvModifyQp

/-- `Connect`, behind its check of the size of the data. -/
def connect (q : QueuePair) (remote : ConnectionExchgData) : Option QueuePair :=
  -- ready to recv must be set first
  ({ q with
    remoteConnectionHeader := remote.header
    remoteConnectionData := remote.data } : QueuePair).setReadyToRecv ibvModifyQp |>.bind
      (setReadyToSend ibvModifyQp)

end

end QueuePair

/-- The queue pairs of the connections of a process. -/
abbrev QueuePairs := NodeId → Option QueuePair

namespace QueuePairs

variable (ibvModifyQp : IbvModifyQp)

/-- What a call of the manager does to them; `none` if the verbs refuse it. -/
def call (q : QueuePairs) : Call → Option QueuePairs
  | .createConnection n data =>
    match q n with
    | some _ => none
    | none => (QueuePair.new ibvModifyQp data.physicalQPId data.psn).map fun qp =>
      Function.update q n (some qp)
  | .connect n remote =>
    match q n with
    | none => none
    | some qp => (qp.connect ibvModifyQp remote).map fun qp => Function.update q n (some qp)
  | .close n _ =>
    match q n with
    | none => none
    | some _ => some (Function.update q n none)
  | .connectionOpened _ | .nodeConnected _ | .connectionClosed _ | .nodeDisconnected _
  | .nodeInvalidated _ | .nodeDiscovered _ | .discoveryReq _ => some q

/-- The queue pairs after these calls. -/
def exec (calls : List Call) : Option QueuePairs :=
  Lts.exec (call ibvModifyQp) (fun _ => none) calls

end QueuePairs

/-! ## What the verbs calls lead to -/

namespace QueuePair

/-- Ready to send to, and to receive from, the queue pair these data are of. -/
structure Ready (q : QueuePair) (header : RemoteConnectionHeader) (data : RemoteConnectionData) :
    Prop where
  qpState : q.ibQP.attr.qpState = .rts
  destQpNum : q.ibQP.attr.destQpNum = data.physicalQPId
  rqPsn : q.ibQP.attr.rqPsn = data.psn
  sqPsn : q.ibQP.attr.sqPsn = q.ibPsn
  dlid : q.ibQP.attr.ahAttr.dlid = header.lid

variable {q q' : QueuePair} {ibvModifyQp : IbvModifyQp} {mask : List IbvQpAttrMask}

/-- A transition that is documented is taken, and sets the attributes in the mask. -/
theorem exists_modify (h : ModifiesQp ibvModifyQp) (q : QueuePair) (attr : IbvQpAttr)
    (hmask : requiredAttrs q.ibQP.attr.qpState attr.qpState = some mask) :
    ∃ qp, q.modify ibvModifyQp attr mask = some { q with ibQP := qp } ∧
      qp.qpNum = q.ibQP.qpNum ∧ qp.attr = q.ibQP.attr.override attr mask := by
  obtain ⟨qp, hqp⟩ := h.takes hmask
  exact ⟨qp, by rw [modify, hqp, Option.map_some], h.sets hqp⟩

theorem exists_new (h : ModifiesQp ibvModifyQp) (qpNum ibPsn : UInt32) :
    ∃ q, new ibvModifyQp qpNum ibPsn = some q ∧
      q.ibQP.qpNum = qpNum ∧ q.ibPsn = ibPsn ∧ q.ibQP.attr.qpState = .init := by
  obtain ⟨qp, hqp, hnum, hattr⟩ := exists_modify h (createQP qpNum ibPsn)
    { qpState := .init
      pkeyIndex := 0
      portNum := defaultIbPort
      qpAccessFlags := 2 ||| 1 } rfl
  exact ⟨_, hqp, hnum, rfl, by rw [hattr]; rfl⟩

/-- `Connect` on an initialised queue pair leaves it ready. -/
theorem exists_connect (h : ModifiesQp ibvModifyQp) (hinit : q.ibQP.attr.qpState = .init)
    (remote : ConnectionExchgData) :
    ∃ q', q.connect ibvModifyQp remote = some q' ∧ q'.ibQP.qpNum = q.ibQP.qpNum ∧
      q'.ibPsn = q.ibPsn ∧ q'.Ready remote.header remote.data := by
  unfold connect setReadyToRecv setReadyToSend
  obtain ⟨qp₁, hqp₁, hnum₁, hattr₁⟩ := exists_modify h
    { q with
      remoteConnectionHeader := remote.header
      remoteConnectionData := remote.data }
    { qpState := .rtr
      pathMtu := 5
      destQpNum := remote.data.physicalQPId
      rqPsn := remote.data.psn
      maxDestRdAtomic := 1
      minRnrTimer := 1
      ahAttr :=
        { isGlobal := 0
          dlid := remote.header.lid
          sl := ibQosLevel
          srcPathBits := 0
          portNum := defaultIbPort } }
    (by rw [hinit]; rfl)
  rw [hqp₁, Option.bind_some]
  obtain ⟨qp₂, hqp₂, hnum₂, hattr₂⟩ := exists_modify h
    { q with
      ibQP := qp₁
      remoteConnectionHeader := remote.header
      remoteConnectionData := remote.data }
    { qpState := .rts
      timeout := 14
      retryCnt := 7
      rnrRetry := 7
      sqPsn := q.ibPsn
      maxRdAtomic := 1 }
    (by rw [hattr₁]; rfl)
  refine ⟨_, hqp₂, hnum₂.trans hnum₁, rfl, ?_⟩
  constructor
  all_goals
    simp only [hattr₂, hattr₁]
    rfl

end QueuePair

namespace QueuePairs

variable {ibvModifyQp : IbvModifyQp}

theorem exec_append {calls new : List Call} {q : QueuePairs} (h : exec ibvModifyQp calls = some q) :
    exec ibvModifyQp (calls ++ new) = Lts.exec (call ibvModifyQp) q new := by
  unfold exec at h ⊢
  cases hnew : Lts.exec (call ibvModifyQp) q new with
  | some q' => exact Lts.exec_append_eq_some.mpr ⟨q, h, hnew⟩
  | none =>
    rw [Option.eq_none_iff_forall_ne_some]
    intro q' hq'
    obtain ⟨q₁, hq₁, hrest⟩ := Lts.exec_append_eq_some.mp hq'
    obtain rfl := Option.some.inj (h.symm.trans hq₁)
    rw [hnew] at hrest
    cases hrest

/-- The calls that drive no queue pair. -/
def Idle : Call → Prop
  | .createConnection _ _ | .connect _ _ | .close _ _ => False
  | _ => True

/-- A call that is only made for a listener. -/
theorem idle_listener {c : Call} (hc : Idle c) (listener : Bool) :
    ∀ call ∈ if listener then [c] else [], Idle call := by
  intro call hcall
  cases listener with
  | false => cases hcall
  | true => exact List.mem_singleton.mp hcall ▸ hc

theorem exec_idle {calls : List Call} (h : ∀ c ∈ calls, Idle c) (q : QueuePairs) :
    Lts.exec (call ibvModifyQp) q calls = some q := by
  induction calls with
  | nil => rfl
  | cons c calls ih =>
    have hc : call ibvModifyQp q c = some q := by
      have hidle := h c List.mem_cons_self
      cases c with
      | createConnection | connect | close => exact absurd hidle id
      | _ => rfl
    exact Lts.exec_cons_eq_some.mpr
      ⟨q, hc, ih fun c' hc' => h c' (List.mem_cons_of_mem c hc')⟩

end QueuePairs

/-! ## The queue pair of a link -/

/-- The queue pair is the one of the connection: initialised until `Connect` is
called, then ready for the remote whose data the connection has stored. -/
structure Drives (c : Connection) (connectedToRemote : Prop) (q : QueuePair) : Prop where
  qpNum : q.ibQP.qpNum = c.ibPhysicalQPId
  ibPsn : q.ibPsn = c.ibPsn
  init : ¬ connectedToRemote → q.ibQP.attr.qpState = .init
  ready : connectedToRemote → q.Ready c.remoteConnectionHeader c.remoteConnectionData

namespace Link

/-- A link has a queue pair exactly when it has a connection, and it has called
`Connect` before its state is connected. -/
structure Driven (l : Link) (q : Option QueuePair) : Prop where
  none : l.connection = none → q = none
  some : ∀ c, l.connection = some c → ∃ qp, q = some qp ∧
    Drives c (Within exchgFlagConnectedToRemote l.state.exchgFlags) qp
  connected : l.state.state = .connected → Within exchgFlagConnectedToRemote l.state.exchgFlags

variable {l l' : Link} {q : Option QueuePair}

theorem driven_new : Link.Driven { state := {}, connection := none } none where
  none _ := rfl
  some _ hc := nomatch hc
  connected h := nomatch h

/-- The queue pair depends on connection and exchange flags only. -/
theorem Driven.congr (h : l.Driven q) (hconnection : l'.connection = l.connection)
    (hflags : l'.state.exchgFlags = l.state.exchgFlags)
    (hconnected : l'.state.state = .connected →
      Within exchgFlagConnectedToRemote l.state.exchgFlags) : l'.Driven q where
  none hc := h.none (hconnection ▸ hc)
  some c hc := by
    rw [hflags]
    exact h.some c (hconnection ▸ hc)
  connected hstate := by
    rw [hflags]
    exact hconnected hstate

theorem driven_closed (l : Link) : l.closed.Driven none where
  none _ := rfl
  some _ hc := nomatch hc
  connected h := nomatch h

end Link

/-! ## The queue pairs of a manager -/

namespace ConnectionManager

/-- The calls made so far were taken by the verbs, and have led to the queue
pairs `q` of the links. -/
structure Driven (ibvModifyQp : IbvModifyQp) (m : ConnectionManager) (q : QueuePairs) : Prop where
  exec : QueuePairs.exec ibvModifyQp m.calls = some q
  links : ∀ n, (m.link n).Driven (q n)

variable {ibvModifyQp : IbvModifyQp} {m m' : ConnectionManager} {env : Environment}
  {q q' : QueuePairs} {n : NodeId}

theorem driven_new (p : Params) : (new p).Driven ibvModifyQp fun _ => none where
  exec := rfl
  links _ := Link.driven_new

/-- Calls that drive no queue pair, and links that stay driven. -/
theorem Driven.idle (h : m.Driven ibvModifyQp q) (calls : List Call)
    (hcalls : m'.calls = m.calls ++ calls) (hidle : ∀ c ∈ calls, QueuePairs.Idle c)
    (hlinks : ∀ n, (m'.link n).Driven (q n)) :
    m'.Driven ibvModifyQp q where
  exec := by rw [hcalls, QueuePairs.exec_append h.exec, QueuePairs.exec_idle hidle]
  links := hlinks

/-- The link to one node and its queue pair change. -/
theorem Driven.update (h : m.Driven ibvModifyQp q) (calls : List Call) {l : Link}
    (qp : Option QueuePair) (hlink : m'.link n = l) (hother : ∀ k, k ≠ n → m'.link k = m.link k)
    (hcalls : m'.calls = m.calls ++ calls)
    (hexec : Lts.exec (QueuePairs.call ibvModifyQp) q calls = some (Function.update q n qp))
    (hl : l.Driven qp) : m'.Driven ibvModifyQp (Function.update q n qp) where
  exec := by rw [hcalls, QueuePairs.exec_append h.exec, hexec]
  links k := by
    by_cases hk : k = n
    · rw [hk, Function.update_self, hlink]
      exact hl
    · rw [Function.update_of_ne hk, hother k hk]
      exact h.links k

theorem Driven.allocates (hmodify : ModifiesQp ibvModifyQp) (h : m.Driven ibvModifyQp q)
    (hm : m.Holds) (ha : Allocates env n m m') : ∃ q', m'.Driven ibvModifyQp q' := by
  cases ha with
  | kept hc => exact ⟨q, h⟩
  | @created connectionId data hc hid hqp =>
    obtain ⟨qp, hnew, hnum, hpsn, hstate⟩ := QueuePair.exists_new hmodify data.physicalQPId data.psn
    have hnone := (h.links n).none hc
    have hzero := ((hm n).unallocated hc).1
    rw [link_state] at hzero
    have hunset : ¬ Within exchgFlagConnectedToRemote (m.connectionStates n).exchgFlags := by
      rw [hzero]
      exact ConnectionState.not_connectedToRemote_within_zero
    refine ⟨_, h.update [.createConnection n data] (some qp) (link_setLink_self m n _)
      (fun k hk => link_setLink_of_ne m n _ hk) rfl ?_ ⟨?_, ?_, ?_⟩⟩
    · simp only [Lts.exec, QueuePairs.call, hnone, hnew, Option.map_some]
    · intro hcreated
      cases hcreated
    · intro c hc
      obtain rfl := Option.some.inj hc
      exact ⟨qp, rfl, hnum, hpsn, fun _ => hstate, fun hset => absurd hset hunset⟩
    · intro hcreated
      cases hcreated

/-- Exchange data is handled: the first time this calls `Connect`, on a queue
pair that is initialised. -/
theorem Driven.learn (hmodify : ModifiesQp ibvModifyQp) (h : m.Driven ibvModifyQp q)
    {remote : ConnectionExchgData} {c : Connection}
    (hc : (m.link remote.header.nodeId).connection = some c) :
    ∃ q', (m.learn remote).Driven ibvModifyQp q' := by
  obtain ⟨qp, hqp, hdrives⟩ := (h.links remote.header.nodeId).some c hc
  have hlearn := Link.learn_connection hc remote
  rw [link_state] at hlearn
  have hset := Link.connectedToRemote_within_learnFlags
    (m.connectionStates remote.header.nodeId).exchgFlags remote.header.exchgFlags
  cases hconnected : (m.connectionStates remote.header.nodeId).isConnectedToRemote with
  | true =>
    rw [if_pos hconnected] at hlearn
    refine ⟨q, h.idle [] (by simp [ConnectionManager.learn, hconnected]) (by simp)
      fun k => ?_⟩
    by_cases hk : k = remote.header.nodeId
    · subst hk
      refine ⟨fun hnone => ?_, fun c' hc' => ⟨qp, hqp, ?_⟩, fun _ => ?_⟩
      · rw [link_learn, hlearn] at hnone
        cases hnone
      · rw [link_learn, hlearn] at hc'
        obtain rfl := Option.some.inj hc'
        rw [link_learn]
        exact ⟨hdrives.qpNum, hdrives.ibPsn, fun hnot => absurd hset hnot,
          fun _ => hdrives.ready (ConnectionState.isConnectedToRemote_iff.mp hconnected)⟩
      · rw [link_learn]
        exact hset
    · have hother : (m.learn remote).link k = m.link k := link_setLink_of_ne m _ _ hk
      rw [hother]
      exact h.links k
  | false =>
    have hunset : ¬ Within exchgFlagConnectedToRemote
        (m.link remote.header.nodeId).state.exchgFlags := by
      rw [← ConnectionState.isConnectedToRemote_iff, link_state, hconnected]
      exact Bool.false_ne_true
    rw [if_neg (by simp [hconnected])] at hlearn
    obtain ⟨qp', hconnect, hnum, hpsn, hready⟩ :=
      QueuePair.exists_connect hmodify (hdrives.init hunset) remote
    refine ⟨_, h.update [.connect remote.header.nodeId remote] (some qp')
      (link_learn m remote) (fun k hk => link_setLink_of_ne m _ _ hk)
      (by simp [ConnectionManager.learn, hconnected]) ?_ ⟨fun hnone => ?_, fun c' hc' => ?_,
        fun _ => hset⟩⟩
    · simp only [Lts.exec, QueuePairs.call, hqp, hconnect, Option.map_some]
    · rw [hlearn] at hnone
      cases hnone
    · rw [hlearn] at hc'
      obtain rfl := Option.some.inj hc'
      exact ⟨qp', rfl, hnum.trans hdrives.qpNum, hpsn.trans hdrives.ibPsn,
        fun hnot => absurd hset hnot, fun _ => hready⟩

/-- Completing a connection drives no queue pair. -/
theorem Driven.finishedOrAnswered (h : m.Driven ibvModifyQp q) (remote : ConnectionExchgData)
    (c : Connection) (ipv4 : UInt32) :
    (m.finishedOrAnswered remote c ipv4).Driven ibvModifyQp q := by
  unfold ConnectionManager.finishedOrAnswered
  split
  · next hcomp =>
    have hset : Within exchgFlagConnectedToRemote
        (m.connectionStates remote.header.nodeId).exchgFlags := by
      rw [(ConnectionState.connectionExchgComplete_iff.mp hcomp.1).1]
      exact ConnectionState.proper_connectedToRemote
    have hlinks : ∀ available, ∀ k, ((m.setLink remote.header.nodeId
        { m.link remote.header.nodeId with
          state := { m.connectionStates remote.header.nodeId with
            state := .connected, available := available } }).link k).Driven (q k) := by
      intro available k
      by_cases hk : k = remote.header.nodeId
      · rw [hk, link_setLink_self]
        exact (h.links _).congr rfl rfl fun _ => hset
      · rw [link_setLink_of_ne m _ _ hk]
        exact h.links k
    split
    · exact h.idle [] (by simp [killed]) (by simp) (hlinks _)
    · refine h.idle (.connectionOpened remote.header.nodeId ::
        if m.listener then [.nodeConnected remote.header.nodeId] else []) rfl ?_ (hlinks _)
      exact List.forall_mem_cons.mpr
        ⟨trivial, QueuePairs.idle_listener (c := .nodeConnected _) trivial _⟩
  · split
    · exact ⟨h.exec, h.links⟩
    · exact h

/-- A closed connection takes its queue pair with it. -/
theorem Driven.closed (h : m.Driven ibvModifyQp q) {c : Connection} (hc : m.connections n = some c)
    (force shutdown : Bool) : ∃ q', (m.closed n c force shutdown).Driven ibvModifyQp q' := by
  obtain ⟨qp, hqp, -⟩ := (h.links n).some c hc
  refine ⟨_, h.update _ none (link_setLink_self m n _)
    (fun k hk => link_setLink_of_ne m n _ hk)
    (by simp only [ConnectionManager.closed, List.append_assoc]; rfl) ?_ (Link.driven_closed _)⟩
  refine Lts.exec_cons_eq_some.mpr ⟨Function.update q n none, ?_, QueuePairs.exec_idle ?_ _⟩
  · simp only [QueuePairs.call, hqp]
  · exact List.forall_mem_append.mpr
      ⟨QueuePairs.idle_listener (c := .nodeInvalidated n) trivial _, List.forall_mem_cons.mpr
        ⟨trivial, QueuePairs.idle_listener (c := .nodeDisconnected n) trivial _⟩⟩

theorem Driven.dispatched (hmodify : ModifiesQp ibvModifyQp) (h : m.Driven ibvModifyQp q)
    (hm : m.Holds) {job : Job} (hd : Dispatched env m job m') : ∃ q', m'.Driven ibvModifyQp q' := by
  cases hd with
  | createDropped | connectDropped | discoveredUnknown => exact ⟨q, h⟩
  | create hshutdown hinfo halloc hc =>
    rcases halloc with ⟨halloc, -⟩ | rfl
    · obtain ⟨q', h'⟩ := h.allocates hmodify hm halloc
      exact ⟨q', h'.exec, h'.links⟩
    · exact ⟨q, h.exec, h.links⟩
  | connect hshutdown hinfo halloc hcreated hc =>
    obtain ⟨q₁, h₁⟩ := h.allocates hmodify hm halloc
    obtain ⟨c₁, hc₁⟩ := halloc.exists_connection
    obtain ⟨q', h'⟩ := h₁.learn hmodify hc₁
    exact ⟨q', h'.finishedOrAnswered _ _ _⟩
  | close hc => exact h.closed hc _ _
  | @closeAgain n force shutdown hc =>
    refine ⟨q, h.idle [] (List.append_nil _).symm (by simp) fun k => ?_⟩
    by_cases hk : k = n
    · rw [hk, updateState_eq, link_setLink_self]
      exact (h.links n).congr rfl rfl (h.links n).connected
    · rw [updateState_eq, link_setLink_of_ne m n _ hk]
      exact h.links k
  | discover hipv4s =>
    refine ⟨q, h.idle _ rfl (fun call hcall => ?_) h.links⟩
    obtain ⟨ipv4, -, rfl⟩ := List.mem_map.mp hcall
    trivial
  | discovered htake =>
    exact ⟨q, h.idle _ rfl (QueuePairs.idle_listener (c := .nodeDiscovered _) trivial _) h.links⟩

/-- A write of another thread to the state of a link. -/
theorem Driven.updateState (h : m.Driven ibvModifyQp q) {st : ConnectionState}
    (hst : Link.SameExchange (m.connectionStates n) st) :
    (m.setLink n { m.link n with state := st }).Driven ibvModifyQp q := by
  refine h.idle [] (List.append_nil _).symm (by simp) fun k => ?_
  by_cases hk : k = n
  · rw [hk, link_setLink_self]
    refine (h.links n).congr rfl hst.exchgFlags fun hstate => ?_
    rcases hst.state with hsame | ⟨hlt, -⟩
    · exact (h.links n).connected (hsame ▸ hstate)
    · rw [hstate] at hlt
      exact absurd hlt (by decide)
  · rw [link_setLink_of_ne m n _ hk]
    exact h.links k

theorem Driven.step {a : Action} (hmodify : ModifiesQp ibvModifyQp) (h : m.Driven ibvModifyQp q)
    (hm : m.Holds) (hs : ConnectionManager.step m a = some m') :
    ∃ q', m'.Driven ibvModifyQp q' := by
  cases a with
  | requestCreation n =>
    obtain rfl := Option.some.inj hs
    rw [updateState_eq]
    exact ⟨q, h.updateState (Link.sameExchange_requestCreation _)⟩
  | giveUpCreation n =>
    obtain rfl := Option.some.inj hs
    rw [updateState_eq]
    exact ⟨q, h.updateState (Link.sameExchange_giveUpCreation _)⟩
  | addJob job =>
    obtain rfl := Option.some.inj hs
    exact ⟨q, h.exec, h.links⟩
  | runJob env =>
    obtain ⟨job, jobQueue, -, hd⟩ := step_runJob hs
    have hq : ({ m with jobQueue } : ConnectionManager).Driven ibvModifyQp q := ⟨h.exec, h.links⟩
    exact hq.dispatched hmodify hm hd
  | shutdown =>
    obtain rfl := Option.some.inj hs
    exact ⟨q, h.exec, h.links⟩

theorem driven {p : Params} (hmodify : ModifiesQp ibvModifyQp)
    (h : Lts.Reachable ConnectionManager.step (new p) m) : ∃ q, m.Driven ibvModifyQp q := by
  have hinv : m.Holds ∧ ∃ q, m.Driven ibvModifyQp q := by
    refine h.invariant (I := fun m => m.Holds ∧ ∃ q, m.Driven ibvModifyQp q)
      (fun m a m' hi hs => ?_) ⟨holds_new p, _, driven_new p⟩
    obtain ⟨hm, q, hq⟩ := hi
    exact ⟨hm.step hs, hq.step hmodify hm hs⟩
  exact hinv.2

/-- **In every state a manager reaches**, whatever exchange data it was sent: the
verbs have taken every call so far; exactly the nodes with a connection have a
queue pair, the one of that connection; and if the connection can be handed out
it is ready to send to the queue pair whose data `Connect` was given. -/
theorem queue_pairs_driven {p : Params} (hmodify : ModifiesQp ibvModifyQp)
    (h : Lts.Reachable step (new p) m) :
    ∃ q, QueuePairs.exec ibvModifyQp m.calls = some q ∧ ∀ n,
      (m.connections n = none ↔ q n = none) ∧
      ∀ c, m.connections n = some c → ∃ qp, q n = some qp ∧
        qp.ibQP.qpNum = c.createConnectionExchangeData.physicalQPId ∧
        ((m.connectionStates n).isConnectedToRemote = false → qp.ibQP.attr.qpState = .init) ∧
        ((m.connectionStates n).state = .connected ∨
            (m.connectionStates n).isConnectedToRemote = true →
          qp.Ready c.remoteConnectionHeader c.remoteConnectionData) := by
  obtain ⟨q, hq⟩ := driven hmodify h
  refine ⟨q, hq.exec, fun n => ⟨⟨(hq.links n).none, fun hnone => ?_⟩, fun c hc => ?_⟩⟩
  · by_contra hsome
    obtain ⟨c, hc⟩ := Option.ne_none_iff_exists'.mp hsome
    obtain ⟨qp, hqp, -⟩ := (hq.links n).some c hc
    rw [hnone] at hqp
    cases hqp
  · obtain ⟨qp, hqp, hdrives⟩ := (hq.links n).some c hc
    refine ⟨qp, hqp, hdrives.qpNum, fun hunset => hdrives.init ?_, fun hconnected => ?_⟩
    · rw [← ConnectionState.isConnectedToRemote_iff, link_state, hunset]
      exact Bool.false_ne_true
    · refine hdrives.ready ?_
      rcases hconnected with hstate | hset
      · exact (hq.links n).connected hstate
      · exact ConnectionState.isConnectedToRemote_iff.mp hset

/-- A manager that has created a connection, and closed it again. -/
theorem queue_pairs_driven_closed :
    ∃ m q, Lts.exec step (new (Pair.exampleParams .a))
        [.addJob (.discovered 0x0A000002 2), .runJob {}, .requestCreation 2,
          .addJob (.createConnection 2), .runJob { created := .ok { physicalQPId := 7 } },
          .addJob (.closeConnection 2 true false), .runJob {}] = some m ∧
      QueuePairs.exec modifyRequired m.calls = some q ∧ q 2 = none := by
  have hmap : (Lts.exec step (new (Pair.exampleParams .a))
      [.addJob (.discovered 0x0A000002 2), .runJob {}, .requestCreation 2,
        .addJob (.createConnection 2), .runJob { created := .ok { physicalQPId := 7 } },
        .addJob (.closeConnection 2 true false), .runJob {}]).map
      (fun m => (m.connections 2).isNone) = some true := by decide +kernel
  obtain ⟨m, hm, hnone⟩ := Option.map_eq_some_iff.mp hmap
  obtain ⟨q, hq, hlinks⟩ := queue_pairs_driven modifyRequired_modifiesQp ⟨_, hm⟩
  exact ⟨m, q, hm, hq, (hlinks 2).1.mp (Option.isNone_iff_eq_none.mp hnone)⟩

end ConnectionManager

/-! ## The ports -/

namespace Exchange

variable {p : Side → Params} {x x' : Exchange} {s : Side}

variable (p) in
/-- Exchange data says at which port its sender is, and so does what a connection
has stored of it. -/
structure Located (x : Exchange) (s : Side) : Prop where
  sent : ∀ remote ∈ x.pending s.other, remote.header.lid = (p s).lid
  stored : Within exchgFlagConnectedToRemote (x.link s).state.exchgFlags →
    ∀ c, (x.link s).connection = some c → c.remoteConnectionHeader.lid = (p s.other).lid

theorem located_init (s : Side) : Located p init s where
  sent := by simp [init]
  stored h := absurd h ConnectionState.not_connectedToRemote_within_zero

section
variable {l : Link} {rest sent : Multiset ConnectionExchgData} {calls : List Call}

/-- A step of `s` takes what the other side sent, and changes nothing there. -/
theorem Located.act_other (h : Located p x s.other)
    (hrest : ∀ remote ∈ rest, remote ∈ x.pending s) :
    Located p (x.act s l rest sent calls) s.other where
  sent := by
    have hsent := h.sent
    rw [Side.other_other] at hsent ⊢
    rw [act_pending_self]
    exact fun remote hremote => hsent remote (hrest remote hremote)
  stored := by
    rw [act_link_other]
    exact h.stored

theorem Located.act_self (h : Located p x s)
    (hsent : ∀ remote ∈ sent, remote.header.lid = (p s).lid)
    (hstored : Within exchgFlagConnectedToRemote l.state.exchgFlags →
      ∀ c, l.connection = some c → c.remoteConnectionHeader.lid = (p s.other).lid) :
    Located p (x.act s l rest sent calls) s where
  sent := by
    rw [act_pending_other]
    intro remote hremote
    rcases Multiset.mem_add.mp hremote with hremote | hremote
    · exact h.sent remote hremote
    · exact hsent remote hremote
  stored := by
    rw [act_link_self]
    exact hstored

end

theorem Located.micro (hholds : ∀ t, (x.link t).Holds) (h : ∀ t, Located p x t)
    (hm : Micro p x x') : ∀ t, Located p x' t := by
  -- the side that acts keeps its own, the other one loses what was on its way
  have hboth : ∀ {s : Side} {l : Link} {rest sent : Multiset ConnectionExchgData}
      {calls : List Call}, (∀ remote ∈ rest, remote ∈ x.pending s) →
      (∀ remote ∈ sent, remote.header.lid = (p s).lid) →
      (Within exchgFlagConnectedToRemote l.state.exchgFlags →
        ∀ c, l.connection = some c → c.remoteConnectionHeader.lid = (p s.other).lid) →
      ∀ t, Located p (x.act s l rest sent calls) t := by
    intro s l rest sent calls hrest hsent hstored t
    rcases Side.eq_or_eq_other s t with rfl | rfl
    · exact (h t).act_self hsent hstored
    · exact (h s.other).act_other hrest
  cases hm with
  | @note s calls hcalls => exact hboth (fun _ => id) (by simp) (h s).stored
  | @state s st hst =>
    refine hboth (fun _ => id) (by simp) fun hset => (h s).stored ?_
    exact hst.exchgFlags ▸ hset
  | @net s rest hrest => exact hboth hrest (by simp) (h s).stored
  | @allocate s connectionId qp hc =>
    refine hboth (fun _ => id) (by simp) fun hset => ?_
    rw [Link.allocate, ((hholds s).unallocated hc).1] at hset
    exact absurd hset ConnectionState.not_connectedToRemote_within_zero
  | @learn s remote rest c hpending hc =>
    refine hboth (fun r hr => hpending ▸ Multiset.mem_cons_of_mem hr) (by simp)
      fun _ c' hc' => ?_
    have hlearn := Link.learn_connection hc remote
    rw [hlearn] at hc'
    obtain rfl := Option.some.inj hc'
    have hsent := (h s.other).sent
    rw [Side.other_other] at hsent
    split
    · next hset => exact (h s).stored (ConnectionState.isConnectedToRemote_iff.mp hset) c hc
    · exact hsent remote (hpending ▸ Multiset.mem_cons_self _ _)
  | @opened s c hc hcomp => exact hboth (fun _ => id) (by simp) (h s).stored
  | @send s c hc =>
    refine hboth (fun _ => id) (fun remote hremote => ?_) (h s).stored
    rw [Multiset.mem_singleton.mp hremote]
    rfl

theorem Located.micros (hprov : ∀ t, Provenance p x t) (h : ∀ t, Located p x t)
    (hm : Relation.ReflTransGen (Micro p) x x') : ∀ t, Located p x' t := by
  induction hm with
  | refl => exact h
  | tail hms hm ih =>
    exact Located.micro (fun t => (Provenance.micros hprov hms t).holds) ih hm

end Exchange

/-! ## Two nodes -/

/-- The first queue pair is ready to send to, and to receive from, the second one,
which is at the port `lid`. -/
structure QueuePair.PointsTo (q q' : QueuePair) (lid : UInt16) : Prop where
  qpState : q.ibQP.attr.qpState = .rts
  destQpNum : q.ibQP.attr.destQpNum = q'.ibQP.qpNum
  rqPsn : q.ibQP.attr.rqPsn = q'.ibQP.attr.sqPsn
  dlid : q.ibQP.attr.ahAttr.dlid = lid

namespace Pair

variable {ibvModifyQp : IbvModifyQp} {p : Side → Params} {w w' : Pair} {a : Action}

variable (ibvModifyQp p) in
/-- What holds of the queue pairs in every state a run without closes reaches. -/
structure Attached (w : Pair) : Prop where
  unclosed : Unclosed p w
  located : ∀ s, (exchange p w).Located p s
  driven : ∀ s, ∃ q, (w.node s).Driven ibvModifyQp q

theorem attached_init : Attached ibvModifyQp p (init p) where
  unclosed := unclosed_init
  located s := exchange_init (p := p) ▸ Exchange.located_init s
  driven s := ⟨_, ConnectionManager.driven_new (p s)⟩

theorem Attached.step (hmodify : ModifiesQp ibvModifyQp) (hw : Attached ibvModifyQp p w)
    (ha : ∀ s, ¬ a.Closes s) (h : Pair.step p w a = some w') : Attached ibvModifyQp p w' := by
  obtain ⟨hw', label, hx, hlabel⟩ := step_exchange hw.unclosed.addressed h
  have hkill : ∀ s, label ≠ .kill s := by
    rintro s rfl
    exact Exchange.Provenance.not_kill hw.unclosed.provenance hx
  have hmicro := hx.micro hkill fun s => hlabel.not_close (hw.unclosed.noClose s)
  refine ⟨(hw.unclosed.step ha h).1,
    Exchange.Located.micros hw.unclosed.provenance hw.located hmicro, fun s => ?_⟩
  rcases step_acts h with ⟨v, t, b, hnode, -, hact⟩ | ⟨hnode, -⟩
  · obtain ⟨m, hm, rfl⟩ := actNode_eq_some hact
    rw [hnode] at hm
    by_cases hts : s = t
    · subst hts
      obtain ⟨q, hq⟩ := hw.driven s
      obtain ⟨q', hq'⟩ := hq.step hmodify (hw.unclosed.addressed.holds s) hm
      simp only [Function.update_self]
      exact ⟨q', hq'.exec, hq'.links⟩
    · simp only [Function.update_of_ne hts, hnode]
      exact hw.driven s
  · rw [hnode]
    exact hw.driven s

/-- A side that has executed `Connect` has a queue pair that points to the one of
the connection the other side holds, as soon as that one can send. -/
theorem Attached.pointsTo (hw : Attached ibvModifyQp p w) {s : Side} {q q' : QueuePairs}
    (hq : (w.node s).Driven ibvModifyQp q) (hq' : (w.node s.other).Driven ibvModifyQp q')
    (hset : Within exchgFlagConnectedToRemote (w.stateOf p s).exchgFlags)
    (hset' : Within exchgFlagConnectedToRemote (w.stateOf p s.other).exchgFlags) :
    ∃ qp qp', q (nodeId p s.other) = some qp ∧ q' (nodeId p s) = some qp' ∧
      qp.PointsTo qp' (p s.other).lid := by
  obtain ⟨c, c', -, hc, hc', hdata, -, -⟩ :=
    ConnectExecuted.of_connectedWith ((hw.unclosed.agreement s).connected hset)
  obtain ⟨qp, hqp, hdrives⟩ := (hq.links (nodeId p s.other)).some c hc
  obtain ⟨qp', hqp', hdrives'⟩ := (hq'.links (nodeId p s)).some c' hc'
  have hlid := (hw.located s).stored hset c hc
  rw [stateOf, Side.other_other] at hset'
  obtain ⟨hstate, hdest, hrq, -, hdlid⟩ := hdrives.ready hset
  have hsq := (hdrives'.ready hset').sqPsn
  refine ⟨qp, qp', hqp, hqp', hstate, ?_, ?_, hdlid.trans hlid⟩
  · rw [hdest, hdata, hdrives'.qpNum]
    rfl
  · rw [hrq, hdata, hsq, hdrives'.ibPsn]
    rfl

/-- **In every run in which no side closes**: when the connection of a side can
be handed out, the queue pairs of both sides are ready to send and to receive,
each pointing to the other one, with the packet sequence number the other one
starts at. -/
theorem queue_pairs_paired (hmodify : ModifiesQp ibvModifyQp) {as : List Action}
    (has : ∀ a ∈ as, ∀ s, ¬ a.Closes s)
    (h : Lts.exec (step p) (init p) as = some w) (s : Side)
    (hstate : (w.stateOf p s).state = .connected) :
    ∃ q q' qp qp', QueuePairs.exec ibvModifyQp (w.node s).calls = some q ∧
      QueuePairs.exec ibvModifyQp (w.node s.other).calls = some q' ∧
      q (nodeId p s.other) = some qp ∧ q' (nodeId p s) = some qp' ∧
      qp.PointsTo qp' (p s.other).lid ∧ qp'.PointsTo qp (p s).lid := by
  have hw : Attached ibvModifyQp p w := by
    refine Lts.exec_invariant_along (I := fun v => Attached ibvModifyQp p v)
      (P := fun _ a => ∀ s, ¬ a.Closes s) (fun v a v' hv ha hs => hv.step hmodify ha hs)
      attached_init (Lts.along_of_forall_mem has _) h
  obtain ⟨q, hq⟩ := hw.driven s
  obtain ⟨q', hq'⟩ := hw.driven s.other
  have hset : Within exchgFlagConnectedToRemote (w.stateOf p s).exchgFlags := by
    rw [show (w.stateOf p s).exchgFlags = exchgFlagCompleted from
      (hw.unclosed.provenance s).completed hstate]
    exact ConnectionState.proper_connectedToRemote
  have hset' : Within exchgFlagConnectedToRemote (w.stateOf p s.other).exchgFlags := by
    rw [show (w.stateOf p s.other).exchgFlags = exchgFlagCompleted from
      ((hw.unclosed.agreement s).completed hstate).1]
    exact ConnectionState.proper_connectedToRemote
  obtain ⟨qp, qp', hqp, hqp', hpoints⟩ := hw.pointsTo hq hq' hset hset'
  obtain ⟨qp₁', qp₁, hqp₁', hqp₁, hpoints'⟩ := hw.pointsTo (s := s.other)
    hq' (by rw [Side.other_other]; exact hq) hset' (by rw [Side.other_other]; exact hset)
  rw [Side.other_other] at hqp₁' hpoints'
  obtain rfl := Option.some.inj (hqp'.symm.trans hqp₁')
  obtain rfl := Option.some.inj (hqp.symm.trans hqp₁)
  exact ⟨q, q', qp, qp', hq.exec, hq'.exec, hqp, hqp', hpoints, hpoints'⟩

/-- The queue pairs 7 and 9 of the example handshake. -/
theorem queue_pairs_paired_example :
    ∃ w, Lts.exec (step exampleParams) (init exampleParams)
        (exampleDiscovery ++ exampleCreation ++ exampleRetransmit) = some w ∧
      ∃ q q' qp qp', QueuePairs.exec modifyRequired (w.node .a).calls = some q ∧
        QueuePairs.exec modifyRequired (w.node .b).calls = some q' ∧
        q 2 = some qp ∧ q' 1 = some qp' ∧ qp.PointsTo qp' 2 ∧ qp'.PointsTo qp 1 := by
  have hrun : (Lts.exec (step exampleParams) (init exampleParams)
      (exampleDiscovery ++ exampleCreation ++ exampleRetransmit)).map
        (fun w => (w.stateOf exampleParams .a).state) = some .connected := by
    decide +kernel
  obtain ⟨w, hw, hstate⟩ := Option.map_eq_some_iff.mp hrun
  exact ⟨w, hw, queue_pairs_paired modifyRequired_modifiesQp exampleHandshake_closes hw .a hstate⟩

end Pair

end Ibdxnet.Con
