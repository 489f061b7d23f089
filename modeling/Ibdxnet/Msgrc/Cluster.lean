import Ibdxnet.Lib.Channels
import Ibdxnet.Msgrc.Transfer

/-!
# A cluster of senders and receivers

Any number of nodes, each with a send and a receive dispatcher.  What the send
dispatcher of one node hands to `ibv_post_send` is on the way to the other node
until a poll there takes it; the polls of a node take the messages of the other
nodes in any interleaving, those of one node in order.  A queue pair that fails
loses what is on the way.

The application of a node writes a stream of bytes for every other node to the
ring of its connection and goes by what it is told was posted.  Then

    delivered bytes of a node are a prefix of its stream     (streams_delivered)
    all it was told was posted, once nothing is under way
    after failures a part of it, in order and never twice    (streams_after_failures)
-/

namespace Ibdxnet.Msgrc

open Ibdxnet.Con Sys Dx

/-! ## Nodes and links -/

structure Cluster where
  senders : NodeId → SendWorld
  receivers : NodeId → RecvWorld
  /-- On the way to the first node from the second one. -/
  inFlight : NodeId → NodeId → List Message
  /-- Everything posted for the first node at the second one. -/
  sent : NodeId → NodeId → List Message
  /-- The queue pair to the first node from the second one has failed before. -/
  failed : NodeId → NodeId → Bool

/-- A call of `SendDispatcher::Dispatch` on node `s` while the ring it sends
from has this content, a poll on node `n` that completes these work requests
with messages of these nodes, another step of its receiver, a failure. -/
inductive ClusterAction
  | send (s : NodeId) (sendBuffer : Nat → UInt8) (env : DispatchEnv)
  | poll (n : NodeId) (completions : List (NodeId × Nat))
  | recv (n : NodeId) (a : RecvAction)
  | fail (n s : NodeId)

namespace SendWorld

/-- The messages the last call of `Dispatch` posted for node `n`. -/
def messagesFor (w : SendWorld) (sendBuffer : Nat → UInt8) (n : NodeId) : List Message :=
  (w.posted.filter fun p => p.nodeId = n).map fun p => p.wr.message sendBuffer

end SendWorld

/-- The streams the applications send, and the rings they write them to. -/
structure Application where
  ringSize : NodeId → NodeId → Nat
  start : NodeId → NodeId → Nat
  stream : NodeId → NodeId → Nat → UInt8

/-- The ring holds the stream of node `s` from where the package starts. -/
def Application.Filled (app : Application) (w : SendWorld) (s : NodeId) (sendBuffer : Nat → UInt8)
    (env : DispatchEnv) : Prop :=
  SendWorld.OnPackage env fun workPackage connection =>
    connection.sourceNodeId = s ∧
      ∀ i < regionLength connection.sendBufferSize workPackage.posBackRel workPackage.posFrontRel,
        sendBuffer ((workPackage.posBackRel + i) % connection.sendBufferSize) =
          app.stream s workPackage.nodeId (w.told workPackage.nodeId + i)

instance (app : Application) (w : SendWorld) (s : NodeId) (sendBuffer : Nat → UInt8)
    (env : DispatchEnv) : Decidable (app.Filled w s sendBuffer env) :=
  inferInstanceAs (Decidable (SendWorld.OnPackage env fun _ _ => _ ∧ ∀ i < _, _))

namespace Cluster

def init (cfg : SendConfig) (rcfg : RecvConfig) : Cluster where
  senders _ := .init cfg
  receivers _ := .init rcfg
  inFlight _ _ := []
  sent _ _ := []
  failed _ _ := false

/-- The arrivals that complete these work requests with these messages. -/
def arrivals (completions : List (NodeId × Nat)) (messages : List Message) : List Arrival :=
  List.zipWith (fun c m => ⟨c.2, .success, m⟩) completions messages

def step (cfg : SendConfig) (rcfg : RecvConfig) (cl : Cluster) : ClusterAction → Option Cluster
  | .send s sendBuffer env =>
    (SendWorld.step cfg (cl.senders s) env).map fun w =>
      { cl with
        senders := Function.update cl.senders s w
        inFlight := fun n => Function.update (cl.inFlight n) s
          (cl.inFlight n s ++ w.messagesFor sendBuffer n)
        sent := fun n => Function.update (cl.sent n) s
          (cl.sent n s ++ w.messagesFor sendBuffer n) }
  | .poll n completions =>
    match Channels.take (completions.map Prod.fst) (cl.inFlight n) with
    | none => none
    | some (messages, inFlight) =>
      (RecvWorld.step rcfg (cl.receivers n) (.poll (some (arrivals completions messages)))).map
        fun w =>
          { cl with
            receivers := Function.update cl.receivers n w
            inFlight := Function.update cl.inFlight n inFlight }
  | .recv _ (.poll _) => none
  | .recv n a =>
    (RecvWorld.step rcfg (cl.receivers n) a).map fun w =>
      { cl with receivers := Function.update cl.receivers n w }
  | .fail n s => some
      { cl with
        inFlight := Function.update cl.inFlight n (Function.update (cl.inFlight n) s [])
        failed := Function.update cl.failed n (Function.update (cl.failed n) s true) }

/-! ## Applications -/

/-- Applications that go by what they are told, receive queues that can be posted to,
and handlers that process what is there. -/
def Behaves (cfg : SendConfig) (app : Application) (N : Nat) (cl : Cluster) :
    ClusterAction → Prop
  | .send s sendBuffer env =>
    SendWorld.PostsOrDisconnects cfg (cl.senders s) env ∧
      SendWorld.Valid cfg N (cl.senders s) env ∧
      SendWorld.Conforms (app.ringSize s) (app.start s) (cl.senders s) env ∧
      app.Filled (cl.senders s) s sendBuffer env
  | .recv _ (.refillPost failsAt) => failsAt = none
  | .recv n (.dispatchReceived processed) =>
    processed ≤ (cl.receivers n).dispatcher.ringBuffer.usedEntries
  | _ => True

instance (cfg : SendConfig) (app : Application) (N : Nat) (cl : Cluster) :
    ∀ a, Decidable (Behaves cfg app N cl a)
  | .send _ _ _ => inferInstanceAs (Decidable (_ ∧ _ ∧ _ ∧ _))
  | .recv _ (.refillPost failsAt) => inferInstanceAs (Decidable (failsAt = none))
  | .recv _ (.dispatchReceived _) => inferInstanceAs (Decidable (_ ≤ _))
  | .recv _ (.poll _) | .recv _ .refill | .recv _ .process
  | .recv _ (.returnBuffers _) | .poll _ _ | .fail _ _ => inferInstanceAs (Decidable True)

/-! ## What is compared -/

/-- What the handler of node `n` was given from node `s`. -/
def deliveredFrom (cl : Cluster) (n s : NodeId) : List (Entry × List UInt8) :=
  (cl.receivers n).delivered.filter fun e => e.1.sourceNodeId = s

def deliveredBytes (cl : Cluster) (n s : NodeId) : List UInt8 :=
  (cl.deliveredFrom n s).flatMap Prod.snd

def deliveredFcData (cl : Cluster) (n s : NodeId) : List UInt8 :=
  ((cl.deliveredFrom n s).map fun e => e.1.fcData).filter (· ≠ 0)

/-- The stream of node `s` for node `n`, as far as its application was told it was posted. -/
def toldStream (app : Application) (cl : Cluster) (n s : NodeId) : List UInt8 :=
  (List.range ((cl.senders s).told n)).map (app.stream s n)

/-- The flow control data posted at node `s` for node `n`. -/
def postedFcData (cl : Cluster) (n s : NodeId) : List UInt8 :=
  (((cl.senders s).history.filter fun p => p.nodeId = n).map fun p =>
    p.wr.immData.flowControlData).filter (· ≠ 0)

/-- Nothing is under way to the handler of node `n` from node `s`. -/
structure Drained (cl : Cluster) (n s : NodeId) : Prop where
  inFlight : cl.inFlight n s = []
  unprocessed : (cl.receivers n).unprocessed = []
  ringBuffer : (cl.receivers n).dispatcher.ringBuffer.usedEntries = 0

end Cluster

/-! ## The messages of one call -/

namespace SendWorld

section
variable {cfg : SendConfig} {env : DispatchEnv} {w w' w₁ : SendWorld} {s : NodeId}
  {sendBuffer : Nat → UInt8}

theorem OnPackage.imp {P Q : NextWorkPackage → Connection → Prop} (h : OnPackage env P)
    (hPQ : ∀ workPackage connection, P workPackage connection → Q workPackage connection) :
    OnPackage env Q := by
  unfold OnPackage at h ⊢
  split
  · next hwp hc =>
    rw [hwp, hc] at h
    exact fun hne => hPQ _ _ (h hne)
  · trivial

theorem Polls.posted (h : Polls cfg env w w') : w'.posted = w.posted := by
  cases h <;> rfl

/-- The work requests a call has posted, if any, are those built for its package. -/
theorem posted_of_step (hpool : w.PoolHolds) (hs : step cfg w env = some w') :
    w'.posted = [] ∨ ∃ workPackage connection ids, env.workPackage = some workPackage ∧
      workPackage.nodeId ≠ nodeIdInvalid ∧ env.getConnection = .ok connection ∧
      ids.length = (packageRequests cfg w.dispatcher connection workPackage).length ∧
      (w'.posted.map PostedWr.wr).map IbvSendWr.unlinked = List.zipWith
        (fun ctx r => SendRequest.toWr r connection.sourceNodeId ctx) ids
        (packageRequests cfg w.dispatcher connection workPackage) := by
  obtain ⟨workPackage, hwp, ⟨w₁, hsends, hpolls⟩ | ⟨-, ⟨-, hpolls⟩ | ⟨nodeId, -, rfl⟩⟩⟩ :=
    step_cases hs
  · have hposted : w'.posted = w₁.posted := by
      rcases hpolls with hpolls | ⟨nodeId, d, -, rfl⟩
      · exact hpolls.posted
      · rfl
    rw [hposted]
    cases hsends with
    | idle => exact Or.inl rfl
    | sent hne hc hconnection hrun =>
      next c connection ret w₂ =>
      obtain ⟨xs, hxs⟩ := hpool
      obtain ⟨ids, rest, p, rfl, hlen, hp, -,
        ⟨rfl, rfl⟩ | ⟨-, hids, sendWrs, posted, hunlinked, rfl⟩⟩ :=
        run_sendData_ok (w := w.beginDispatch.connect connection) hxs hrun
      · exact Or.inl rfl
      · right
        subst hconnection
        refine ⟨workPackage, c, ids, hwp, hne, hc, hlen, ?_⟩
        have hwrs : (posted.map (PostedWr.mk workPackage.nodeId)).map PostedWr.wr = posted := by
          rw [List.map_map]
          exact List.map_id posted
        change ((posted.map (PostedWr.mk workPackage.nodeId)).map PostedWr.wr).map _ = _
        rw [hwrs]
        exact hunlinked
  · exact Or.inl (by rw [hpolls.posted]; rfl)
  · exact Or.inl rfl

/-- The messages of a call name their sender and fit a receive work request. -/
theorem messagesFor_bounds {N : Nat} (hN : cfg.arith.ExactBelow N)
    (hM : 0 < cfg.recvBufferSize * cfg.maxSGEs) (hpool : w.PoolHolds)
    (hvalid : Valid cfg N w env)
    (hsource : OnPackage env fun _ connection => connection.sourceNodeId = s)
    (hs : step cfg w env = some w') (n : NodeId) : ∀ m ∈ w'.messagesFor sendBuffer n,
    m.immData.sourceNodeId = s ∧ m.bytes.length ≤ cfg.recvBufferSize * cfg.maxSGEs ∧
      (m.bytes = [] → m.immData.flowControlData ≠ 0) := by
  intro m hm
  obtain ⟨p, hp, rfl⟩ := List.mem_map.mp hm
  have hp' : p ∈ w'.posted := (List.mem_filter.mp hp).1
  rcases posted_of_step hpool hs with hnil | ⟨workPackage, connection, ids, hwp, hne, hc, hlen, h⟩
  · rw [hnil] at hp'
    cases hp'
  · obtain ⟨hb, hf, hS⟩ := hvalid.apply hwp hc hne
    have hMax : cfg.maxRecvBufferSize = cfg.recvBufferSize * cfg.maxSGEs := hN.mul (by omega)
    have hmessages : (w'.posted.map PostedWr.wr).map (IbvSendWr.message sendBuffer) =
        (packageRequests cfg w.dispatcher connection workPackage).map
          fun r => ⟨r.offsets.map sendBuffer, ⟨connection.sourceNodeId, r.fcData⟩⟩ :=
      map_posted hlen h (fun _ => rfl) (fun _ _ => rfl)
    have hmem : p.wr.message sendBuffer ∈
        (w'.posted.map PostedWr.wr).map (IbvSendWr.message sendBuffer) :=
      List.mem_map_of_mem (List.mem_map_of_mem hp')
    rw [hmessages] at hmem
    obtain ⟨r, hr, hmr⟩ := List.mem_map.mp hmem
    obtain ⟨hle, hnonempty, hoffsets⟩ := requests_bounds hN hMax hS hM _ hb hf r hr
    rw [← hmr]
    refine ⟨hsource.apply hwp hc hne, by rw [List.length_map, hoffsets]; exact hle, fun hnil => ?_⟩
    rcases hnonempty with hpos | hfc
    · have hzero := congrArg List.length hnil
      rw [List.length_map, hoffsets, List.length_nil] at hzero
      omega
    · exact hfc

/-- The results of a call never report more than the region of its package. -/
theorem posted_bytes {N : Nat} (hN : cfg.arith.ExactBelow N)
    (hM : 0 < cfg.recvBufferSize * cfg.maxSGEs) (hpool : w.PoolHolds)
    (hlogs : Logs cfg env w w') (hvalid : Valid cfg N w env) (hs : step cfg w env = some w') :
    w'.posted = [] ∧ w'.dispatcher.prevWorkPackageResults.numBytesPosted = 0 ∨
    ∃ workPackage connection, env.workPackage = some workPackage ∧
      workPackage.nodeId ≠ nodeIdInvalid ∧ env.getConnection = .ok connection ∧
      w'.dispatcher.prevWorkPackageResults.nodeId = workPackage.nodeId ∧
      w'.dispatcher.prevWorkPackageResults.numBytesPosted ≤
        regionLength connection.sendBufferSize workPackage.posBackRel workPackage.posFrontRel ∧
      w'.posted.flatMap (fun p => p.wr.offsets) = Ring.window id connection.sendBufferSize
        workPackage.posBackRel w'.dispatcher.prevWorkPackageResults.numBytesPosted := by
  rcases hlogs.valid with hnil | ⟨workPackage, connection, hwp, hne, hc, hnode, hcover⟩
  · exact Or.inl hnil
  · obtain ⟨hb, hf, hS⟩ := hvalid.apply hwp hc hne
    obtain ⟨hwindow, -⟩ := hcover N hN hM ⟨hb, hf, hS⟩
    refine Or.inr ⟨workPackage, connection, hwp, hne, hc, hnode, ?_, hwindow⟩
    have hlen := congrArg List.length hwindow
    rw [Ring.length_window] at hlen
    rw [← hlen]
    rcases posted_of_step hpool hs with hnil | ⟨workPackage', c', ids, hwp', -, hc', hids, h⟩
    · rw [hnil]
      exact Nat.zero_le _
    · obtain rfl := Option.some.inj (hwp.symm.trans hwp')
      obtain rfl := Except.ok.inj (hc.symm.trans hc')
      have hMax : cfg.maxRecvBufferSize = cfg.recvBufferSize * cfg.maxSGEs := hN.mul (by omega)
      have hoffsets : (w'.posted.map PostedWr.wr).map IbvSendWr.offsets =
          (packageRequests cfg w.dispatcher connection workPackage).map SendRequest.offsets :=
        map_posted hids h (fun _ => rfl) (fun _ _ => rfl)
      have hflat : w'.posted.flatMap (fun p => p.wr.offsets) =
          (packageRequests cfg w.dispatcher connection workPackage).flatMap
            SendRequest.offsets := by
        rw [List.flatMap_def, List.flatMap_def, ← hoffsets, List.map_map]
        rfl
      rw [hflat, packageRequests, flatMap_offsets_requests hN hMax hS _ hb hf, Ring.length_window]
      exact Nat.min_le_right _ _

/-- The messages of a call continue the stream of each node from what was told
before up to what is told after it. -/
theorem messagesFor_stream {N : Nat} {app : Application} (hN : cfg.arith.ExactBelow N)
    (hM : 0 < cfg.recvBufferSize * cfg.maxSGEs) (hpool : w.PoolHolds)
    (hlogs : Logs cfg env w w') (hvalid : Valid cfg N w env)
    (hfilled : app.Filled w s sendBuffer env) (hs : step cfg w env = some w') (n : NodeId) :
    (List.range (w.told n)).map (app.stream s n) ++
        (w'.messagesFor sendBuffer n).flatMap Message.bytes =
      (List.range (w'.told n)).map (app.stream s n) := by
  have htold : w'.told n = w.told n + if w'.dispatcher.prevWorkPackageResults.nodeId = n then
      w'.dispatcher.prevWorkPackageResults.numBytesPosted else 0 := by
    rw [told, hlogs.reported]
  have hbytes : (w'.messagesFor sendBuffer n).flatMap Message.bytes =
      ((w'.posted.filter fun p => p.nodeId = n).flatMap fun p => p.wr.offsets).map sendBuffer := by
    rw [messagesFor, List.flatMap_map, List.map_flatMap]
    rfl
  rw [htold, hbytes]
  rcases posted_bytes hN hM hpool hlogs hvalid hs with
    ⟨hnil, hzero⟩ | ⟨workPackage, connection, hwp, hne, hc, hnode, hle, hwindow⟩
  · simp [hnil, hzero]
  · by_cases hn : workPackage.nodeId = n
    · subst hn
      obtain ⟨-, hring⟩ := hfilled.apply hwp hc hne
      have hall : (w'.posted.filter fun p => p.nodeId = workPackage.nodeId) = w'.posted := by
        rw [List.filter_eq_self]
        intro p hp
        rw [hlogs.reports.nodeId p hp, hnode]
        exact decide_eq_true rfl
      rw [hall, hwindow, if_pos hnode, List.range_add, List.map_append, List.map_map, Ring.window,
        List.map_map]
      congr 1
      apply List.map_congr_left
      intro i hi
      exact hring i (Nat.lt_of_lt_of_le (List.mem_range.mp hi) hle)
    · have hother : (w'.posted.filter fun p => p.nodeId = n) = [] := by
        rw [List.filter_eq_nil_iff]
        intro p hp
        rw [hlogs.reports.nodeId p hp, hnode]
        simpa using hn
      rw [hother, if_neg (by rw [hnode]; exact hn)]
      simp

end

end SendWorld

/-! ## The messages a step of the receiver takes -/

/-- The messages the completions of a poll are of. -/
def RecvAction.messages : RecvAction → List Message
  | .poll (some arrivals) => arrivals.map Arrival.message
  | _ => []

namespace RecvWorld

section
variable {cfg : RecvConfig} {w w' : RecvWorld} {a : RecvAction}

theorem call_arrived {α : Type} {x : EStateM Exception RecvDispatcher α}
    {next : α → RecvWorld → RecvWorld} (h : ∀ b w, (next b w).arrived = w.arrived) :
    (w.call x next).arrived = w.arrived := by
  rw [call]
  split
  · rw [h]
  · rfl

theorem post_arrived (failsAt : Option Nat) (recvWRs : List Nat) (w : RecvWorld) :
    (post cfg failsAt recvWRs w).arrived = w.arrived := by
  cases recvWRs with
  | nil => rfl
  | cons id ids =>
    cases failsAt with
    | some i => rfl
    | none =>
      simp only [post]
      split <;> rfl

/-- Only a poll adds to the arrived messages. -/
theorem arrived_of_step (hs : step cfg w a = some w') :
    w'.arrived = w.arrived ++ a.messages := by
  unfold step at hs
  split at hs
  · cases hs
  · cases a with
    | poll ret =>
      cases hpc : w.pc <;> simp only [hpc, reduceCtorEq] at hs
      cases ret with
      | none =>
        simp only at hs
        split at hs
        · obtain rfl := Option.some.inj hs
          exact (call_arrived fun _ _ => rfl).trans (List.append_nil _).symm
        · cases hs
      | some arrivals =>
        simp only at hs
        split at hs
        · obtain rfl := Option.some.inj hs
          refine Eq.trans (call_arrived fun _ _ => rfl) ?_
          rw [foldl_arrive_eq]
          rfl
        · cases hs
    | refill =>
      cases hpc : w.pc <;> simp only [hpc, reduceCtorEq, Option.some.injEq] at hs
      rw [← hs, call_arrived fun r w => by split <;> rfl]
      exact (List.append_nil _).symm
    | refillPost failsAt =>
      cases hpc : w.pc <;> simp only [hpc, reduceCtorEq, Option.some.injEq] at hs
      rw [← hs, call_arrived fun recvWRs w => post_arrived failsAt recvWRs w]
      exact (List.append_nil _).symm
    | process =>
      cases hpc : w.pc <;> simp only [hpc, reduceCtorEq] at hs
      split at hs
      · obtain rfl := Option.some.inj hs
        exact Eq.trans (call_arrived fun _ _ => rfl) (List.append_nil _).symm
      · obtain rfl := Option.some.inj hs
        exact (List.append_nil _).symm
    | dispatchReceived processed =>
      cases hpc : w.pc <;> simp only [hpc, reduceCtorEq, Option.some.injEq] at hs
      rw [← hs, call_arrived fun called w => by split <;> rfl]
      exact (List.append_nil _).symm
    | returnBuffers buffers =>
      have hs' : (if buffers.Subperm w.handler then
          some (w.call
            (RecvDispatcher.onBufferPool (RecvBufferPool.returnBuffers cfg.arith buffers))
              fun _ w => { w with handler := w.handler.diff buffers })
        else none) = some w' := by
        cases hpc : w.pc <;> simpa only [hpc] using hs
      split at hs'
      · obtain rfl := Option.some.inj hs'
        exact Eq.trans (call_arrived fun _ _ => rfl) (List.append_nil _).symm
      · cases hs'

/-- A step of a receiver with admissible answers keeps its invariants. -/
theorem custody_flow_step (h : ∃ pool es wrs, Custody cfg w pool es wrs ∧ Flow cfg w es)
    (ha : ∀ {pool es wrs}, Custody cfg w pool es wrs → Admissible cfg w a)
    (hs : step cfg w a = some w') :
    ∃ pool es wrs, Custody cfg w' pool es wrs ∧ Flow cfg w' es := by
  obtain ⟨pool, es, wrs, hc, hf⟩ := h
  obtain ⟨pool', es', wrs', hmoves, hholds⟩ := hc.moves (ha hc) hs
  exact ⟨pool', es', wrs', hc.preserved hmoves hholds, hf.step hc hmoves⟩

end

end RecvWorld

/-! ## The messages of one source -/

/-- The entries of the messages of one source are those of the groups of these messages. -/
theorem filter_flatten_of_carries {messages : List Message}
    {groups : List (List (Entry × List UInt8))} (h : List.Forall₂ Carries messages groups)
    (s : NodeId) : ∃ groups', groups.flatten.filter (fun e => e.1.sourceNodeId = s) =
      groups'.flatten ∧
      List.Forall₂ Carries (messages.filter fun m => m.immData.sourceNodeId = s) groups' := by
  induction h with
  | nil => exact ⟨[], rfl, .nil⟩
  | @cons m group messages groups hcarries _ ih =>
    obtain ⟨groups', hflatten, hgroups'⟩ := ih
    rw [List.flatten_cons, List.filter_append, hflatten, List.filter_cons]
    by_cases hm : m.immData.sourceNodeId = s
    · have hall : (group.filter fun e => e.1.sourceNodeId = s) = group := by
        rw [List.filter_eq_self]
        intro e he
        rw [hcarries.sourceNodeId e he]
        exact decide_eq_true hm
      rw [hall, if_pos (decide_eq_true hm)]
      exact ⟨group :: groups', rfl, .cons hcarries hgroups'⟩
    · have hnone : (group.filter fun e => e.1.sourceNodeId = s) = [] := by
        rw [List.filter_eq_nil_iff]
        intro e he
        rw [hcarries.sourceNodeId e he]
        simpa using hm
      rw [hnone, if_neg (by simpa using hm)]
      exact ⟨groups', rfl, hgroups'⟩

namespace Cluster

/-! ## The invariant -/

section
variable {cfg : SendConfig} {rcfg : RecvConfig} {app : Application} {N : Nat} {cl cl' : Cluster}

/-- Every message posted for node `n` by node `s` is on the way, has arrived, or
was lost when a queue pair failed; those posted are the stream. -/
structure Conserved (cfg : SendConfig) (app : Application) (cl : Cluster) (n s : NodeId) :
    Prop where
  order : List.Sublist (((cl.receivers n).arrived.filter fun m => m.immData.sourceNodeId = s) ++
    cl.inFlight n s) (cl.sent n s)
  all : cl.failed n s = false →
    ((cl.receivers n).arrived.filter fun m => m.immData.sourceNodeId = s) ++ cl.inFlight n s =
      cl.sent n s
  bounds : ∀ m ∈ cl.sent n s, m.immData.sourceNodeId = s ∧
    m.bytes.length ≤ cfg.recvBufferSize * cfg.maxSGEs ∧
      (m.bytes = [] → m.immData.flowControlData ≠ 0)
  bytes : (cl.sent n s).flatMap Message.bytes = toldStream app cl n s
  fcData : (cl.sent n s).map (fun m => m.immData.flowControlData) =
    ((cl.senders s).history.filter fun p => p.nodeId = n).map fun p =>
      p.wr.immData.flowControlData

structure Inv (cfg : SendConfig) (rcfg : RecvConfig) (app : Application) (cl : Cluster) :
    Prop where
  pool : ∀ s, (cl.senders s).PoolHolds
  receiver : ∀ n, ∃ pool es wrs, RecvWorld.Custody rcfg (cl.receivers n) pool es wrs ∧
    RecvWorld.Flow rcfg (cl.receivers n) es
  conserved : ∀ n s, Conserved cfg app cl n s

variable (cfg app) in
theorem init_inv (hpools : rcfg.PoolExact) : Inv cfg rcfg app (init cfg rcfg) where
  pool _ := ⟨_, SendWorkRequestCtxPool.init_holds _⟩
  receiver _ := ⟨_, _, _, RecvWorld.init_custody rcfg hpools, RecvWorld.init_flow rcfg⟩
  conserved n s := by
    have htold : (SendWorld.init cfg).told n = 0 := by
      change 0 + (if nodeIdInvalid = n then 0 else 0) = 0
      split <;> rfl
    refine ⟨List.Sublist.refl _, fun _ => rfl, fun m hm => absurd hm List.not_mem_nil, ?_, rfl⟩
    change [] = (List.range ((SendWorld.init cfg).told n)).map _
    rw [htold]
    rfl

/-- What is on the way is part of what was posted. -/
theorem Conserved.mem_sent {n s : NodeId} (h : Conserved cfg app cl n s) {m : Message}
    (hm : m ∈ cl.inFlight n s) : m ∈ cl.sent n s :=
  h.order.subset (List.mem_append_right _ hm)

/-- A link neither of whose ends moves stays as it is. -/
theorem Conserved.congr {n s : NodeId} (h : Conserved cfg app cl n s)
    (hreceiver : cl'.receivers n = cl.receivers n) (hsender : cl'.senders s = cl.senders s)
    (hinFlight : cl'.inFlight n s = cl.inFlight n s) (hsent : cl'.sent n s = cl.sent n s)
    (hfailed : cl'.failed n s = cl.failed n s) : Conserved cfg app cl' n s where
  order := by rw [hreceiver, hinFlight, hsent]; exact h.order
  all := by rw [hreceiver, hinFlight, hsent, hfailed]; exact h.all
  bounds := by rw [hsent]; exact h.bounds
  bytes := by rw [hsent, toldStream, hsender]; exact h.bytes
  fcData := by rw [hsent, hsender]; exact h.fcData

theorem Conserved.mem_sent_of_arrived {n : NodeId} {m : Message}
    (h : Conserved cfg app cl n m.immData.sourceNodeId) (hm : m ∈ (cl.receivers n).arrived) :
    m ∈ cl.sent n m.immData.sourceNodeId :=
  h.order.subset (List.mem_append_left _ (List.mem_filter.mpr ⟨hm, decide_eq_true rfl⟩))

theorem arrivals_success {completions : List (NodeId × Nat)} {messages : List Message} :
    ∀ a ∈ arrivals completions messages, a.status = .success := by
  intro a ha
  obtain ⟨i, hi, rfl⟩ := List.getElem_of_mem ha
  simp only [arrivals, List.getElem_zipWith]

theorem Inv.send {s : NodeId} {sendBuffer : Nat → UInt8} {env : DispatchEnv}
    (hA : cfg.arith.Lawful) (hN : cfg.arith.ExactBelow N)
    (hM : 0 < cfg.recvBufferSize * cfg.maxSGEs) (h : Inv cfg rcfg app cl)
    (hb : Behaves cfg app N cl (.send s sendBuffer env))
    (hs : step cfg rcfg cl (.send s sendBuffer env) = some cl') : Inv cfg rcfg app cl' := by
  obtain ⟨hposts, hvalid, -, hfilled⟩ := hb
  obtain ⟨w, hw, rfl⟩ := Option.map_eq_some_iff.mp hs
  have hlogs := SendWorld.Logs.step hA (h.pool s) hposts hw
  refine ⟨fun s' => ?_, h.receiver, fun n s' => ?_⟩
  · change (Function.update cl.senders s w s').PoolHolds
    by_cases hss : s' = s
    · rw [hss, Function.update_self]
      exact hlogs.pool
    · rw [Function.update_of_ne hss]
      exact h.pool s'
  · by_cases hss : s' = s
    · subst hss
      have hc := h.conserved n s'
      refine ⟨?_, ?_, ?_, ?_, ?_⟩
      · simp only [Function.update_self]
        rw [← List.append_assoc]
        exact hc.order.append (List.Sublist.refl _)
      · intro hfailed
        simp only [Function.update_self]
        rw [← List.append_assoc, hc.all hfailed]
      · intro m hm
        simp only [Function.update_self] at hm
        rcases List.mem_append.mp hm with hm | hm
        · exact hc.bounds m hm
        · refine SendWorld.messagesFor_bounds hN hM (h.pool s') hvalid ?_ hw n m hm
          exact hfilled.imp fun _ _ hring => hring.1
      · simp only [Function.update_self, toldStream]
        rw [List.flatMap_append, hc.bytes]
        exact SendWorld.messagesFor_stream hN hM (h.pool s') hlogs hvalid hfilled hw n
      · simp only [Function.update_self]
        rw [List.map_append, hc.fcData, hlogs.history, List.filter_append, List.map_append,
          SendWorld.messagesFor, List.map_map]
        rfl
    · exact (h.conserved n s').congr rfl (Function.update_of_ne hss _ _)
        (Function.update_of_ne hss _ _) (Function.update_of_ne hss _ _) rfl

theorem Inv.poll {n : NodeId} {completions : List (NodeId × Nat)}
    (hR : rcfg.recvBufferSize = cfg.recvBufferSize) (hG : rcfg.maxSGEs = cfg.maxSGEs)
    (h : Inv cfg rcfg app cl)
    (hs : step cfg rcfg cl (.poll n completions) = some cl') : Inv cfg rcfg app cl' := by
  rw [step] at hs
  cases htake : Channels.take (completions.map Prod.fst) (cl.inFlight n) with
  | none => rw [htake] at hs; cases hs
  | some r =>
    obtain ⟨messages, inFlight⟩ := r
    rw [htake] at hs
    obtain ⟨w, hw, rfl⟩ := Option.map_eq_some_iff.mp hs
    have hlen := Channels.length_take htake
    rw [List.length_map] at hlen
    have hmessages : (arrivals completions messages).map Arrival.message = messages := by
      apply List.ext_getElem
      · rw [List.length_map, arrivals, List.length_zipWith, hlen, Nat.min_self]
      · intro i h1 h2
        rw [List.getElem_map]
        simp only [arrivals, List.getElem_zipWith]
    have hkeyed : Channels.Keyed (fun m : Message => m.immData.sourceNodeId) (cl.inFlight n) :=
      fun s m hm => ((h.conserved n s).bounds m ((h.conserved n s).mem_sent hm)).1
    have hbounds : ∀ m ∈ (cl.receivers n).arrived ++ messages,
        m.bytes.length ≤ cfg.recvBufferSize * cfg.maxSGEs ∧
          (m.bytes = [] → m.immData.flowControlData ≠ 0) := by
      intro m hm
      rcases List.mem_append.mp hm with hm | hm
      · exact (((h.conserved n _).bounds m) ((h.conserved n _).mem_sent_of_arrived hm)).2
      · obtain ⟨s, hms⟩ := Channels.mem_of_take htake hm
        exact ((h.conserved n s).bounds m ((h.conserved n s).mem_sent hms)).2
    have hreceiver : ∃ pool es wrs, RecvWorld.Custody rcfg w pool es wrs ∧
        RecvWorld.Flow rcfg w es := by
      refine RecvWorld.custody_flow_step (h.receiver n) (fun hc => ?_) hw
      have hdelivers : RecvWorld.Delivers ((cl.receivers n).arrived ++ messages) (cl.receivers n)
          (.poll (some (arrivals completions messages))) :=
        ⟨arrivals_success, by rw [hmessages]⟩
      refine hdelivers.admissible hc ?_ hw
      rw [hR, hG]
      exact hbounds
    have harrived : w.arrived = (cl.receivers n).arrived ++ messages := by
      rw [RecvWorld.arrived_of_step hw, RecvAction.messages, hmessages]
    refine ⟨h.pool, fun n' => ?_, fun n' s => ?_⟩
    · by_cases hn : n' = n
      · subst hn
        simpa only [Function.update_self] using hreceiver
      · simp only [Function.update_of_ne hn]
        exact h.receiver n'
    · by_cases hn : n' = n
      · subst hn
        have hc := h.conserved n' s
        have hlink : (w.arrived.filter fun m => m.immData.sourceNodeId = s) ++ inFlight s =
            ((cl.receivers n').arrived.filter fun m => m.immData.sourceNodeId = s) ++
              cl.inFlight n' s := by
          rw [harrived, List.filter_append, List.append_assoc]
          exact congrArg _ (Channels.filter_take hkeyed htake s)
        refine ⟨?_, fun hfailed => ?_, hc.bounds, hc.bytes, hc.fcData⟩
        · simp only [Function.update_self]
          rw [hlink]
          exact hc.order
        · simp only [Function.update_self]
          rw [hlink]
          exact hc.all hfailed
      · exact (h.conserved n' s).congr (Function.update_of_ne hn _ _) rfl
          (congrFun (Function.update_of_ne hn _ _) s) rfl rfl

theorem Inv.recv {n : NodeId} {a : RecvAction} (h : Inv cfg rcfg app cl)
    (hb : Behaves cfg app N cl (.recv n a)) (hs : step cfg rcfg cl (.recv n a) = some cl') :
    Inv cfg rcfg app cl' := by
  obtain ⟨hadmissible, hnone, w, hw, rfl⟩ : RecvWorld.Admissible rcfg (cl.receivers n) a ∧
      a.messages = [] ∧ ∃ w, RecvWorld.step rcfg (cl.receivers n) a = some w ∧
        { cl with receivers := Function.update cl.receivers n w } = cl' := by
    cases a with
    | poll ret => cases hs
    | dispatchReceived processed => exact ⟨hb, rfl, Option.map_eq_some_iff.mp hs⟩
    | refill => exact ⟨trivial, rfl, Option.map_eq_some_iff.mp hs⟩
    | refillPost failsAt => exact ⟨hb, rfl, Option.map_eq_some_iff.mp hs⟩
    | process => exact ⟨trivial, rfl, Option.map_eq_some_iff.mp hs⟩
    | returnBuffers bs => exact ⟨trivial, rfl, Option.map_eq_some_iff.mp hs⟩
  have harrived : w.arrived = (cl.receivers n).arrived := by
    rw [RecvWorld.arrived_of_step hw, hnone, List.append_nil]
  refine ⟨h.pool, fun n' => ?_, fun n' s => ?_⟩
  · by_cases hn : n' = n
    · subst hn
      simp only [Function.update_self]
      exact RecvWorld.custody_flow_step (h.receiver n') (fun _ => hadmissible) hw
    · simp only [Function.update_of_ne hn]
      exact h.receiver n'
  · have hc := h.conserved n' s
    have hsame : (Function.update cl.receivers n w n').arrived = (cl.receivers n').arrived := by
      by_cases hn : n' = n
      · rw [hn, Function.update_self, harrived]
      · rw [Function.update_of_ne hn]
    exact ⟨by rw [hsame]; exact hc.order, by rw [hsame]; exact hc.all, hc.bounds, hc.bytes,
      hc.fcData⟩

theorem Inv.fail {n s : NodeId} (h : Inv cfg rcfg app cl)
    (hs : step cfg rcfg cl (.fail n s) = some cl') : Inv cfg rcfg app cl' := by
  obtain rfl := Option.some.inj hs
  refine ⟨h.pool, h.receiver, fun n' s' => ?_⟩
  have hc := h.conserved n' s'
  by_cases hns : n' = n ∧ s' = s
  · obtain ⟨rfl, rfl⟩ := hns
    refine ⟨?_, fun hfailed => ?_, hc.bounds, hc.bytes, hc.fcData⟩
    · simp only [Function.update_self, List.append_nil]
      exact (List.sublist_append_left _ _).trans hc.order
    · simp only [Function.update_self, Bool.true_eq_false] at hfailed
  · have hother : ∀ {β : Type} (f : NodeId → NodeId → β) (b : β),
        Function.update f n (Function.update (f n) s b) n' s' = f n' s' := by
      intro β f b
      by_cases hn : n' = n
      · subst hn
        rw [Function.update_self, Function.update_of_ne fun hss => hns ⟨rfl, hss⟩]
      · rw [Function.update_of_ne hn]
    exact hc.congr rfl rfl (hother _ _) rfl (hother _ _)

/-- Every step keeps the invariant. -/
theorem Inv.step {a : ClusterAction} (hA : cfg.arith.Lawful) (hN : cfg.arith.ExactBelow N)
    (hM : 0 < cfg.recvBufferSize * cfg.maxSGEs) (hR : rcfg.recvBufferSize = cfg.recvBufferSize)
    (hG : rcfg.maxSGEs = cfg.maxSGEs) (h : Inv cfg rcfg app cl) (hb : Behaves cfg app N cl a)
    (hs : Cluster.step cfg rcfg cl a = some cl') : Inv cfg rcfg app cl' := by
  cases a with
  | send s sendBuffer env => exact h.send hA hN hM hb hs
  | poll n completions => exact h.poll hR hG hs
  | recv n a => exact h.recv hb hs
  | fail n s => exact h.fail hs

/-- What the handler was given of a node carries messages of it in order; those
it was not given yet are in the ring buffer, to be processed or on the way. -/
theorem Inv.delivered (h : Inv cfg rcfg app cl) (n s : NodeId) :
    ∃ messages rest groups, List.Forall₂ Carries messages groups ∧
      cl.deliveredFrom n s <+: groups.flatten ∧
      messages ++ rest = ((cl.receivers n).arrived.filter fun m => m.immData.sourceNodeId = s) ++
        cl.inFlight n s ∧
      (Drained cl n s → rest = [] ∧ cl.deliveredFrom n s = groups.flatten) := by
  obtain ⟨pool, es, wrs, hc, hf⟩ := h.receiver n
  obtain ⟨done, rest, hsplit, hdone, hrest⟩ := hf.arrived
  obtain ⟨groups, hgroups, hcarries⟩ := filter_flatten_of_carries hdone s
  have hdelivered : cl.deliveredFrom n s ++
      ((cl.receivers n).withBytes es).filter (fun e => e.1.sourceNodeId = s) =
        groups.flatten := by
    rw [← hgroups, ← hf.delivered, List.filter_append]
    rfl
  refine ⟨_, (rest.filter fun m => m.immData.sourceNodeId = s) ++ cl.inFlight n s, groups, hcarries,
    ⟨_, hdelivered⟩, by rw [hsplit, List.filter_append, List.append_assoc], fun hd => ⟨?_, ?_⟩⟩
  · rw [hd.unprocessed, List.forall₂_nil_right_iff] at hrest
    rw [hrest, hd.inFlight]
    rfl
  · have hes : es = [] := List.length_eq_zero_iff.mp
      (hc.holds.ring.usedEntries_eq.symm.trans hd.ringBuffer)
    rw [hes] at hdelivered
    rw [← hdelivered]
    exact (List.append_nil _).symm

/-- With failures: every message is delivered whole, in order and at most once,
and the messages posted are the stream. -/
theorem Inv.sublist (h : Inv cfg rcfg app cl) (n s : NodeId) :
    (cl.sent n s).flatMap Message.bytes = toldStream app cl n s ∧
      ∃ messages groups, messages.Sublist (cl.sent n s) ∧ List.Forall₂ Carries messages groups ∧
        cl.deliveredFrom n s <+: groups.flatten := by
  obtain ⟨messages, rest, groups, hcarries, hprefix, hsplit, -⟩ := h.delivered n s
  refine ⟨(h.conserved n s).bytes, messages, groups, ?_, hcarries, hprefix⟩
  have hsub := (h.conserved n s).order
  rw [← hsplit] at hsub
  exact (List.sublist_append_left _ _).trans hsub

/-- Without failures: a prefix, and everything once nothing is under way. -/
theorem Inv.prefix (h : Inv cfg rcfg app cl) {n s : NodeId} (hfailed : cl.failed n s = false) :
    (cl.deliveredBytes n s <+: toldStream app cl n s ∧
      cl.deliveredFcData n s <+: cl.postedFcData n s) ∧
    (Drained cl n s → cl.deliveredBytes n s = toldStream app cl n s ∧
      cl.deliveredFcData n s = cl.postedFcData n s) := by
  obtain ⟨messages, rest, groups, hcarries, ⟨live, hprefix⟩, hsplit, hdrained⟩ := h.delivered n s
  have hsent := (h.conserved n s).all hfailed
  rw [← hsplit] at hsent
  have hbytes : groups.flatten.flatMap Prod.snd ++ rest.flatMap Message.bytes =
      toldStream app cl n s := by
    rw [flatten_bytes hcarries, ← List.flatMap_append, hsent, (h.conserved n s).bytes]
  have hfcData : (groups.flatten.map fun e => e.1.fcData).filter (· ≠ 0) ++
      (rest.map fun m => m.immData.flowControlData).filter (· ≠ 0) = cl.postedFcData n s := by
    rw [flatten_fcData hcarries, ← List.filter_append, ← List.map_append, hsent,
      (h.conserved n s).fcData]
    rfl
  refine ⟨⟨?_, ?_⟩, fun hd => ?_⟩
  · rw [← hbytes, ← hprefix, List.flatMap_append, List.append_assoc]
    exact List.prefix_append _ _
  · rw [← hfcData, ← hprefix, List.map_append, List.filter_append, List.append_assoc]
    exact List.prefix_append _ _
  · obtain ⟨hrest, hall⟩ := hdrained hd
    rw [hrest] at hbytes hfcData
    rw [deliveredBytes, deliveredFcData, hall]
    exact ⟨by rw [← hbytes]; exact (List.append_nil _).symm,
      by rw [← hfcData]; exact (List.append_nil _).symm⟩

end

/-! ## The theorems -/

section
variable {cfg : SendConfig} {rcfg : RecvConfig} {app : Application} {N : Nat} {cl : Cluster}
  {as : List ClusterAction}

theorem inv_of_exec (hA : cfg.arith.Lawful) (hN : cfg.arith.ExactBelow N)
    (hM : 0 < cfg.recvBufferSize * cfg.maxSGEs) (hR : rcfg.recvBufferSize = cfg.recvBufferSize)
    (hG : rcfg.maxSGEs = cfg.maxSGEs) (hpools : rcfg.PoolExact)
    (hrun : Lts.exec (step cfg rcfg) (init cfg rcfg) as = some cl)
    (hb : Lts.Along (step cfg rcfg) (Behaves cfg app N) (init cfg rcfg) as) :
    Inv cfg rcfg app cl :=
  Lts.exec_invariant_along (fun _ _ _ h hb hs => h.step hA hN hM hR hG hb hs)
    (init_inv cfg app hpools) hb hrun

/-- In every run of a cluster and for every pair of nodes whose queue pair has
not failed: no receiver has thrown, the handler was given a prefix of the stream
and of the flow control data of the other node, and all of both that was
reported as posted once nothing is under way. -/
theorem streams_delivered (hA : cfg.arith.Lawful) (hN : cfg.arith.ExactBelow N)
    (hM : 0 < cfg.recvBufferSize * cfg.maxSGEs) (hR : rcfg.recvBufferSize = cfg.recvBufferSize)
    (hG : rcfg.maxSGEs = cfg.maxSGEs) (hpools : rcfg.PoolExact)
    (hrun : Lts.exec (step cfg rcfg) (init cfg rcfg) as = some cl)
    (hb : Lts.Along (step cfg rcfg) (Behaves cfg app N) (init cfg rcfg) as) (n s : NodeId) :
    (cl.receivers n).thrown = none ∧ (cl.failed n s = false →
      (cl.deliveredBytes n s <+: toldStream app cl n s ∧
        cl.deliveredFcData n s <+: cl.postedFcData n s) ∧
      (Drained cl n s → cl.deliveredBytes n s = toldStream app cl n s ∧
        cl.deliveredFcData n s = cl.postedFcData n s)) := by
  have h := inv_of_exec hA hN hM hR hG hpools hrun hb
  obtain ⟨pool, es, wrs, hc, -⟩ := h.receiver n
  exact ⟨hc.thrown, fun hfailed => h.prefix hfailed⟩

/-- In every run, failures included, each message of a stream is delivered whole
or not at all, in order and at most once. -/
theorem streams_after_failures (hA : cfg.arith.Lawful) (hN : cfg.arith.ExactBelow N)
    (hM : 0 < cfg.recvBufferSize * cfg.maxSGEs) (hR : rcfg.recvBufferSize = cfg.recvBufferSize)
    (hG : rcfg.maxSGEs = cfg.maxSGEs) (hpools : rcfg.PoolExact)
    (hrun : Lts.exec (step cfg rcfg) (init cfg rcfg) as = some cl)
    (hb : Lts.Along (step cfg rcfg) (Behaves cfg app N) (init cfg rcfg) as) (n s : NodeId) :
    (cl.sent n s).flatMap Message.bytes = toldStream app cl n s ∧
      ∃ messages groups, messages.Sublist (cl.sent n s) ∧ List.Forall₂ Carries messages groups ∧
        cl.deliveredFrom n s <+: groups.flatten :=
  (inv_of_exec hA hN hM hR hG hpools hrun hb).sublist n s

end

/-! ### Two senders -/

/-- Byte `i` of the stream of node `s` is `16 * s + i`. -/
def countingStreams : Application where
  ringSize _ _ := 16
  start _ _ := 0
  stream s _ i := 16 * s.toUInt8 + i.toUInt8

/-- Node `s` sends a package for node 3 from a ring that holds its stream. -/
def sendCounting (s : NodeId) (posBackRel posFrontRel : Nat) (fcData : UInt8) : ClusterAction :=
  .send s (fun i => 16 * s.toUInt8 + i.toUInt8)
    { workPackage := some ⟨posBackRel, posFrontRel, fcData, 3⟩
      getConnection := .ok ⟨s, 1, 16⟩
      postSend := .success
      pollCq := some [] }

/-- A call of the receive dispatcher of node 3. -/
def receiveAt3 (completions : List (NodeId × Nat)) (processed : Nat) : List ClusterAction :=
  .poll 3 completions :: ((RecvWorld.dispatchSteps
    (arrivals completions (completions.map fun c => ⟨[], ⟨c.1, 0⟩⟩)) processed).tail.map (.recv 3))

/-- Node 1 sends ten bytes, node 2 sends three with flow control data; the second
message of node 1 is lost when its queue pair fails. -/
def twoSenders : List ClusterAction :=
  receiveAt3 [] 0 ++ [sendCounting 1 0 10 0, sendCounting 2 0 3 5] ++
    receiveAt3 [(1, 0), (2, 1)] 3 ++ [.fail 3 1]

theorem streams_twoSenders : ∃ cl,
    Lts.exec (step smallSendConfig RecvWorld.smallRecvConfig)
      (init smallSendConfig RecvWorld.smallRecvConfig) twoSenders = some cl ∧
    (cl.deliveredBytes 3 2 = toldStream countingStreams cl 3 2 ∧
      cl.deliveredFcData 3 2 = cl.postedFcData 3 2) ∧
    cl.deliveredBytes 3 2 = [32, 33, 34] ∧ cl.deliveredBytes 3 1 =
      [16, 17, 18, 19, 20, 21, 22, 23] := by
  have hmap : (Lts.exec (step smallSendConfig RecvWorld.smallRecvConfig)
      (init smallSendConfig RecvWorld.smallRecvConfig) twoSenders).map (fun cl =>
        (cl.failed 3 2, (cl.inFlight 3 2).length + (cl.receivers 3).unprocessed.length +
          (cl.receivers 3).dispatcher.ringBuffer.usedEntries, cl.deliveredBytes 3 2,
          cl.deliveredBytes 3 1)) =
      some (false, 0, [32, 33, 34], [16, 17, 18, 19, 20, 21, 22, 23]) := by decide +kernel
  obtain ⟨cl, hcl, hv⟩ := Option.map_eq_some_iff.mp hmap
  simp only [Prod.mk.injEq, Nat.add_eq_zero_iff, List.length_eq_zero_iff] at hv
  obtain ⟨hfailed, ⟨⟨hinFlight, hunprocessed⟩, hring⟩, h2, h1⟩ := hv
  have hbehaves : Lts.Along (step smallSendConfig RecvWorld.smallRecvConfig)
      (Behaves smallSendConfig countingStreams 64)
      (init smallSendConfig RecvWorld.smallRecvConfig) twoSenders := by decide +kernel
  obtain ⟨-, h⟩ := streams_delivered Arith.exact_lawful (Arith.exact_exactBelow _) (by decide)
    rfl rfl (RecvConfig.poolExact_of_lt rfl (by decide)) hcl hbehaves 3 2
  exact ⟨cl, hcl, (h hfailed).2 ⟨hinFlight, hunprocessed, hring⟩, h2, h1⟩

theorem streams_after_failures_twoSenders : ∃ cl,
    Lts.exec (step smallSendConfig RecvWorld.smallRecvConfig)
      (init smallSendConfig RecvWorld.smallRecvConfig) twoSenders = some cl ∧
    cl.failed 3 1 = true ∧ (cl.sent 3 1).flatMap Message.bytes =
      toldStream countingStreams cl 3 1 ∧
      ∃ messages groups, messages.Sublist (cl.sent 3 1) ∧ List.Forall₂ Carries messages groups ∧
        cl.deliveredFrom 3 1 <+: groups.flatten := by
  have hmap : (Lts.exec (step smallSendConfig RecvWorld.smallRecvConfig)
      (init smallSendConfig RecvWorld.smallRecvConfig) twoSenders).map (fun cl =>
        cl.failed 3 1) = some true := by decide +kernel
  obtain ⟨cl, hcl, hfailed⟩ := Option.map_eq_some_iff.mp hmap
  exact ⟨cl, hcl, hfailed, streams_after_failures (N := 64) Arith.exact_lawful
    (Arith.exact_exactBelow _) (by decide) rfl rfl (RecvConfig.poolExact_of_lt rfl (by decide))
    hcl (by decide +kernel) 3 1⟩

end Cluster

end Ibdxnet.Msgrc
