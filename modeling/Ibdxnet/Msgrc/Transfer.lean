import Ibdxnet.Msgrc.RecvDelivery
import Ibdxnet.Msgrc.SendReporting

/-!
# From work packages to ring buffer entries

Sender and receiver together.  The work requests that are prepared for a
package are the messages of the package (`SentPackage.messages`).  If a
receiver is given the messages of a sequence of packages, in order, then the
entries it appends fall into groups, one for each package, and the group of a
package carries (`Conveys`)

    the bytes of its ring from m_posBackRel, m_numBytesPosted of them
    the node id of the sender, in every entry
    m_fcDataPosted, once, if it is not zero
-/

namespace Ibdxnet.Msgrc

open Ibdxnet.Con Sys Dx

/-! ## Packages and their messages -/

/-- The message a work request sends from a ring with this content. -/
def IbvSendWr.message (sendBuffer : Nat → UInt8) (wr : IbvSendWr) : Message where
  bytes := wr.offsets.map sendBuffer
  immData := wr.immData

/-- A package for a connection, the content of its ring, and the dispatcher
before and after the work requests for it are prepared. -/
structure SentPackage where
  connection : Connection
  workPackage : NextWorkPackage
  sendBuffer : Nat → UInt8
  before : SendDispatcher
  after : SendDispatcher
  chunks : Nat

namespace SentPackage

/-- The positions are inside the ring, and preparing the package gave `after`. -/
structure Prepared (cfg : SendConfig) (p : SentPackage) : Prop where
  posBackRel_lt : p.workPackage.posBackRel < p.connection.sendBufferSize
  posFrontRel_lt : p.workPackage.posFrontRel < p.connection.sendBufferSize
  pool : ∃ xs, p.before.workRequestCtxPool.Holds xs
  run : (sendDataPrepareWorkRequests cfg p.connection p.workPackage).run p.before =
    .ok p.chunks p.after

/-- The work requests prepared for the package. -/
def sendWrs (p : SentPackage) : List IbvSendWr := (List.range p.chunks).map p.after.sendWrs

def messages (p : SentPackage) : List Message := p.sendWrs.map (IbvSendWr.message p.sendBuffer)

/-- The entries carry what the package's results report as posted. -/
structure Conveys (p : SentPackage) (entries : List (Entry × List UInt8)) : Prop where
  bytes : entries.flatMap Prod.snd =
    (Ring.window id p.connection.sendBufferSize p.workPackage.posBackRel
      p.after.prevWorkPackageResults.numBytesPosted).map p.sendBuffer
  dataLength : ∀ e ∈ entries, e.2.length = e.1.dataLength
  sourceNodeId : ∀ e ∈ entries, e.1.sourceNodeId = p.connection.sourceNodeId
  fcData : (entries.map fun e => e.1.fcData).filter (· ≠ 0) =
    [p.after.prevWorkPackageResults.fcDataPosted].filter (· ≠ 0)

section
variable {cfg : SendConfig} {p : SentPackage}

/-- The work requests are those of the loop, and the results are about them. -/
theorem Prepared.built (h : p.Prepared cfg) :
    ∃ ids, ids.length = (packageRequests cfg p.before p.connection p.workPackage).length ∧
      p.sendWrs.map IbvSendWr.unlinked = List.zipWith
        (fun ctx r => r.toWr p.connection.sourceNodeId ctx) ids
        (packageRequests cfg p.before p.connection p.workPackage) ∧
      p.after.prevWorkPackageResults = packageResults cfg p.connection p.workPackage
        (packageRequests cfg p.before p.connection p.workPackage) := by
  obtain ⟨xs, hxs⟩ := h.pool
  obtain ⟨ids, rest, q, -, hlen, -, -, hchunks, hafter⟩ := run_prepare_ok hxs h.run
  refine ⟨ids, hlen, ?_, by rw [hafter]; rfl⟩
  have hzip : (List.zipWith (fun ctx r => SendRequest.toWr r p.connection.sourceNodeId ctx) ids
      (packageRequests cfg p.before p.connection p.workPackage)).length = ids.length := by
    rw [List.length_zipWith, hlen, Nat.min_self]
  have hwrs : p.sendWrs = List.zipWith (fun ctx r => r.toWr p.connection.sourceNodeId ctx) ids
      (packageRequests cfg p.before p.connection p.workPackage) := by
    rw [sendWrs, hchunks, hafter, hlen, List.range_eq_range']
    exact Updates.map_updateAll List.nodup_range' (by simp [hzip, hlen])
  rw [hwrs]
  apply List.ext_getElem
  · rw [List.length_map]
  · intro i h1 h2
    rw [List.getElem_map, List.getElem_zipWith]
    rfl

section
variable {N : Nat} (hA : cfg.arith.ExactBelow N)
  (hN : p.connection.sendBufferSize + cfg.recvBufferSize * cfg.maxSGEs < N)
  (hM : 0 < cfg.recvBufferSize * cfg.maxSGEs) (h : p.Prepared cfg)

include hA hN hM h

/-- The messages are the reported piece of the ring, in order. -/
theorem Prepared.flatMap_bytes_messages : p.messages.flatMap Message.bytes =
    (Ring.window id p.connection.sendBufferSize p.workPackage.posBackRel
      p.after.prevWorkPackageResults.numBytesPosted).map p.sendBuffer := by
  obtain ⟨ids, hlen, hwrs, hresults⟩ := h.built
  have hposted := (posted_of_valid hA hM ⟨h.posBackRel_lt, h.posFrontRel_lt, hN⟩ hlen hwrs).1
  rw [hresults, ← hposted, messages, List.flatMap_map, List.map_flatMap]
  rfl

/-- Every message fits into one receive work request, and none is empty altogether. -/
theorem Prepared.messages_bounds : ∀ m ∈ p.messages,
    m.bytes.length ≤ cfg.recvBufferSize * cfg.maxSGEs ∧
      (m.bytes = [] → m.immData.flowControlData ≠ 0) := by
  obtain ⟨ids, hlen, hwrs, -⟩ := h.built
  have hMax : cfg.maxRecvBufferSize = cfg.recvBufferSize * cfg.maxSGEs := hA.mul (by omega)
  have hmessages : p.messages = (packageRequests cfg p.before p.connection p.workPackage).map
      fun r => ⟨r.offsets.map p.sendBuffer, ⟨p.connection.sourceNodeId, r.fcData⟩⟩ :=
    SendWorld.map_posted hlen hwrs (fun _ => rfl) (fun _ _ => rfl)
  intro m hm
  rw [hmessages] at hm
  obtain ⟨r, hr, rfl⟩ := List.mem_map.mp hm
  obtain ⟨hle, hnonempty, hoffsets⟩ :=
    requests_bounds hA hMax hN hM _ h.posBackRel_lt h.posFrontRel_lt r hr
  refine ⟨by rw [List.length_map, hoffsets]; exact hle, fun hnil => ?_⟩
  rcases hnonempty with hpos | hfc
  · have hzero := congrArg List.length hnil
    rw [List.length_map, hoffsets, List.length_nil] at hzero
    omega
  · exact hfc

omit hA hN hM in
theorem Prepared.messages_source : ∀ m ∈ p.messages,
    m.immData.sourceNodeId = p.connection.sourceNodeId := by
  obtain ⟨ids, hlen, hwrs, -⟩ := h.built
  have hsources : p.messages.map (fun m => m.immData.sourceNodeId) =
      (packageRequests cfg p.before p.connection p.workPackage).map
        fun _ => p.connection.sourceNodeId := by
    rw [messages, List.map_map]
    exact SendWorld.map_posted hlen hwrs (fun _ => rfl) (fun _ _ => rfl)
  intro m hm
  have hmem := List.mem_map_of_mem (f := fun m : Message => m.immData.sourceNodeId) hm
  rw [hsources] at hmem
  obtain ⟨r, -, hr⟩ := List.mem_map.mp hmem
  exact hr.symm

omit hA hN hM in
/-- The flow control data reported as posted is in one message, or zero. -/
theorem Prepared.messages_fcData :
    (p.messages.map fun m => m.immData.flowControlData).filter (· ≠ 0) =
      [p.after.prevWorkPackageResults.fcDataPosted].filter (· ≠ 0) := by
  obtain ⟨ids, hlen, hwrs, hresults⟩ := h.built
  have hfcs : p.messages.map (fun m => m.immData.flowControlData) =
      (packageRequests cfg p.before p.connection p.workPackage).map SendRequest.fcData := by
    rw [messages, List.map_map]
    exact SendWorld.map_posted hlen hwrs (fun _ => rfl) (fun _ _ => rfl)
  have hfirst : packageRequests cfg p.before p.connection p.workPackage = [] ∨
      ∃ r rs, packageRequests cfg p.before p.connection p.workPackage = r :: rs ∧
        r.fcData = p.workPackage.flowControlData ∧ ∀ r' ∈ rs, r'.fcData = 0 :=
    requests_fcData _ _ _
  rw [hfcs, hresults, packageResults]
  rcases hfirst with hnil | ⟨r, rs, hcons, hr, hzero⟩
  · rw [hnil]
    rfl
  · have hrest : (rs.map SendRequest.fcData).filter (· ≠ 0) = [] := by
      rw [List.filter_eq_nil_iff]
      intro x hx
      obtain ⟨r', hr', rfl⟩ := List.mem_map.mp hx
      simp [hzero r' hr']
    rw [hcons, List.map_cons, List.filter_cons, hrest, hr]
    simp [List.filter_cons]

end

end

/-- Entries that carry the messages of a package convey the package. -/
theorem Prepared.conveys {cfg : SendConfig} {p : SentPackage} {N : Nat}
    (hA : cfg.arith.ExactBelow N)
    (hN : p.connection.sendBufferSize + cfg.recvBufferSize * cfg.maxSGEs < N)
    (hM : 0 < cfg.recvBufferSize * cfg.maxSGEs) (h : p.Prepared cfg)
    {groups : List (List (Entry × List UInt8))} (hgroups : List.Forall₂ Carries p.messages groups) :
    p.Conveys groups.flatten where
  bytes := (flatten_bytes hgroups).trans (h.flatMap_bytes_messages hA hN hM)
  dataLength e he := (flatten_entry hgroups e he).1
  sourceNodeId e he := by
    obtain ⟨-, m, hm, hsource⟩ := flatten_entry hgroups e he
    rw [hsource]
    exact h.messages_source m hm
  fcData := (flatten_fcData hgroups).trans h.messages_fcData

end SentPackage

/-! ## The receiver -/

namespace RecvWorld

/-- The surroundings deliver a prefix of these messages, in order and without
errors, posts succeed, and the handler processes what is there. -/
def Delivers (messages : List Message) (w : RecvWorld) : RecvAction → Prop
  | .poll none => False
  | .poll (some arrivals) => (∀ a ∈ arrivals, a.status = .success) ∧
      w.arrived ++ arrivals.map Arrival.message <+: messages
  | .refillPost failsAt => failsAt = none
  | .dispatchReceived processed => processed ≤ w.dispatcher.ringBuffer.usedEntries
  | _ => True

instance (messages : List Message) (w : RecvWorld) : ∀ a, Decidable (Delivers messages w a)
  | .poll none => inferInstanceAs (Decidable False)
  | .poll (some _) => inferInstanceAs (Decidable (_ ∧ _))
  | .refillPost failsAt => inferInstanceAs (Decidable (failsAt = none))
  | .dispatchReceived _ => inferInstanceAs (Decidable (_ ≤ _))
  | .refill | .process | .returnBuffers _ => inferInstanceAs (Decidable True)

theorem sum_map_getSizeBuffer (cfg : RecvConfig) (bs : List IbMemReg) :
    (bs.map cfg.getSizeBuffer).sum = bs.length * cfg.recvBufferSize := by
  induction bs with
  | nil => simp
  | cons b bs ih =>
    rw [List.map_cons, List.sum_cons, ih, List.length_cons, Nat.succ_mul, Nat.add_comm]
    rfl

/-- Messages that fit a receive work request are admissible. -/
theorem Delivers.admissible {cfg : RecvConfig} {w : RecvWorld} {pool : List IbMemReg}
    {es : List Entry} {wrs : List Nat} {messages : List Message} {a : RecvAction} {w' : RecvWorld}
    (hc : Custody cfg w pool es wrs) (h : Delivers messages w a)
    (hmessages : ∀ m ∈ messages, m.bytes.length ≤ cfg.recvBufferSize * cfg.maxSGEs ∧
      (m.bytes = [] → m.immData.flowControlData ≠ 0))
    (hs : step cfg w a = some w') : Admissible cfg w a := by
  cases a with
  | poll ret =>
    cases ret with
    | none => exact h
    | some arrivals =>
      intro a ha
      have hmem : a.message ∈ messages :=
        h.2.subset (List.mem_append_right _ (List.mem_map_of_mem ha))
      refine ⟨h.1 a ha, ?_, (hmessages _ hmem).2⟩
      have hposted : a.wrId ∈ w.posted := by
        unfold step at hs
        rw [if_neg (by simp [hc.thrown])] at hs
        cases hpc : w.pc <;> simp only [hpc, reduceCtorEq] at hs
        split at hs
        · next hguard => exact hguard.2.subset (List.mem_map_of_mem ha)
        · cases hs
      rw [sum_map_getSizeBuffer, (hc.prepared a.wrId hposted).2, Nat.mul_comm]
      exact (hmessages _ hmem).1
  | dispatchReceived processed => exact h
  | refill => trivial
  | refillPost failsAt => exact h
  | process => trivial
  | returnBuffers bs => trivial

/-- A receiver that has processed all messages has appended entries that carry them. -/
theorem carries_of_delivers {cfg : RecvConfig} {messages : List Message} {w : RecvWorld}
    {as : List RecvAction} (hexact : cfg.PoolExact)
    (hmessages : ∀ m ∈ messages, m.bytes.length ≤ cfg.recvBufferSize * cfg.maxSGEs ∧
      (m.bytes = [] → m.immData.flowControlData ≠ 0))
    (has : Lts.Along (step cfg) (Delivers messages) (init cfg) as)
    (h : Lts.exec (step cfg) (init cfg) as = some w) (hall : w.arrived = messages)
    (hdone : w.unprocessed = []) : List.Forall₂ Carries messages w.appended := by
  have hinv : ∃ pool es wrs, Custody cfg w pool es wrs ∧ Flow cfg w es := by
    refine Lts.exec_invariant_along
      (I := fun w => ∃ pool es wrs, Custody cfg w pool es wrs ∧ Flow cfg w es)
      ?_ ⟨_, _, _, init_custody cfg hexact, init_flow cfg⟩ has h
    rintro w a w' ⟨pool, es, wrs, hc, hf⟩ ha hs
    have hadmissible := ha.admissible hc hmessages hs
    obtain ⟨pool', es', wrs', hmoves, hholds⟩ := hc.moves hadmissible hs
    exact ⟨pool', es', wrs', hc.preserved hmoves hholds, hf.step hc hmoves⟩
  obtain ⟨pool, es, wrs, -, hf⟩ := hinv
  obtain ⟨done, rest, hsplit, hcarries, hrest⟩ := hf.arrived
  rw [hdone, List.forall₂_nil_right_iff] at hrest
  rw [← hall, hsplit, hrest, List.append_nil]
  exact hcarries

end RecvWorld

/-! ## Both together -/

/-- Preparing a package whose positions are inside the ring returns, as long as
there are as many contexts as there is room in the send queue. -/
theorem run_prepare_of_contexts {cfg : SendConfig} (d : SendDispatcher) (connection : Connection)
    (workPackage : NextWorkPackage) {xs : List Nat} {N : Nat} (hA : cfg.arith.ExactBelow N)
    (hN : connection.sendBufferSize + cfg.recvBufferSize * cfg.maxSGEs < N)
    (hM : 0 < cfg.recvBufferSize * cfg.maxSGEs) (hpool : d.workRequestCtxPool.Holds xs)
    (hb : workPackage.posBackRel < connection.sendBufferSize)
    (hf : workPackage.posFrontRel < connection.sendBufferSize)
    (hxs : cfg.ibSQSize.toNat - d.sendQueuePending workPackage.nodeId ≤ xs.length) :
    ∃ chunks d',
      (sendDataPrepareWorkRequests cfg connection workPackage).run d = .ok chunks d' := by
  have hMax : cfg.maxRecvBufferSize = cfg.recvBufferSize * cfg.maxSGEs := hA.mul (by omega)
  refine run_prepare_isOk hpool (Nat.le_trans (length_requests_le _ _ _) hxs) fun r hr => ?_
  rw [hMax]
  exact (requests_bounds hA hMax hN hM _ hb hf r hr).1

/-- The entries fall into one group for each package. -/
theorem conveys_of_carries {cfg : SendConfig} {packages : List SentPackage}
    (hexact : cfg.arith = .exact) (hM : 0 < cfg.recvBufferSize * cfg.maxSGEs)
    (hprepared : ∀ p ∈ packages, p.Prepared cfg) {appended : List (List (Entry × List UInt8))}
    (h : List.Forall₂ Carries (packages.flatMap SentPackage.messages) appended) :
    ∃ groups, appended.flatten = groups.flatten ∧
      List.Forall₂ (fun p group => p.Conveys group) packages groups := by
  induction packages generalizing appended with
  | nil =>
    rw [List.flatMap_nil, List.forall₂_nil_left_iff] at h
    exact ⟨[], by rw [h], .nil⟩
  | cons p packages ih =>
    rw [List.flatMap_cons] at h
    have hlen := h.length_eq
    rw [List.length_append] at hlen
    have hfirst := List.forall₂_take p.messages.length h
    have hrest := List.forall₂_drop p.messages.length h
    rw [List.take_left] at hfirst
    rw [List.drop_left] at hrest
    obtain ⟨groups, hflatten, hgroups⟩ :=
      ih (fun q hq => hprepared q (List.mem_cons_of_mem p hq)) hrest
    have hA : cfg.arith.ExactBelow
        (p.connection.sendBufferSize + cfg.recvBufferSize * cfg.maxSGEs + 1) := by
      rw [hexact]
      exact Arith.exact_exactBelow _
    refine ⟨(appended.take p.messages.length).flatten :: groups, ?_, .cons ?_ hgroups⟩
    · rw [List.flatten_cons, ← hflatten, ← List.flatten_append, List.take_append_drop]
    · exact (hprepared p List.mem_cons_self).conveys hA (Nat.lt_succ_self _) hM hfirst

/-- Positions and lengths as integers (those of the receiver's buffer pool in any
arithmetic that is exact for its size), receiver and sender with the same buffer
size and number of scatter-gather elements: preparing a package returns if it
gets the contexts it needs; no message is larger than a receive work request;
and a receiver that was given the messages of the packages and has processed
them has appended, package by package, exactly what was reported as posted. -/
theorem transfer (cfg : SendConfig) (rcfg : RecvConfig) (hexact : cfg.arith = .exact)
    (hM : 0 < cfg.recvBufferSize * cfg.maxSGEs) (hR : rcfg.recvBufferSize = cfg.recvBufferSize)
    (hG : rcfg.maxSGEs = cfg.maxSGEs) (hpools : rcfg.PoolExact) :
    (∀ (d : SendDispatcher) (connection : Connection) (workPackage : NextWorkPackage)
      (xs : List Nat), d.workRequestCtxPool.Holds xs →
      workPackage.posBackRel < connection.sendBufferSize →
      workPackage.posFrontRel < connection.sendBufferSize →
      cfg.ibSQSize.toNat - d.sendQueuePending workPackage.nodeId ≤ xs.length →
      ∃ chunks d', (sendDataPrepareWorkRequests cfg connection workPackage).run d =
        .ok chunks d') ∧
    ∀ (packages : List SentPackage) (as : List RecvAction) (w : RecvWorld),
      (∀ p ∈ packages, p.Prepared cfg) →
      Lts.Along (RecvWorld.step rcfg)
        (RecvWorld.Delivers (packages.flatMap SentPackage.messages)) (.init rcfg) as →
      Lts.exec (RecvWorld.step rcfg) (.init rcfg) as = some w →
      w.arrived = packages.flatMap SentPackage.messages → w.unprocessed = [] →
      (∀ p ∈ packages, ∀ m ∈ p.messages,
        m.bytes.length ≤ cfg.recvBufferSize * cfg.maxSGEs) ∧
      ∃ groups, w.appended.flatten = groups.flatten ∧
        List.Forall₂ (fun p group => p.Conveys group) packages groups := by
  refine ⟨fun d connection workPackage xs hpool hb hf hxs => ?_,
    fun packages as w hprepared has h hall hdone => ?_⟩
  · have hA : cfg.arith.ExactBelow
        (connection.sendBufferSize + cfg.recvBufferSize * cfg.maxSGEs + 1) := by
      rw [hexact]
      exact Arith.exact_exactBelow _
    exact run_prepare_of_contexts d connection workPackage hA (Nat.lt_succ_self _) hM hpool hb hf
      hxs
  · have hbounds : ∀ p ∈ packages, ∀ m ∈ p.messages,
        m.bytes.length ≤ cfg.recvBufferSize * cfg.maxSGEs ∧
          (m.bytes = [] → m.immData.flowControlData ≠ 0) := by
      intro p hp
      have hA : cfg.arith.ExactBelow
          (p.connection.sendBufferSize + cfg.recvBufferSize * cfg.maxSGEs + 1) := by
        rw [hexact]
        exact Arith.exact_exactBelow _
      exact (hprepared p hp).messages_bounds hA (Nat.lt_succ_self _) hM
    refine ⟨fun p hp m hm => (hbounds p hp m hm).1,
      conveys_of_carries hexact hM hprepared ?_⟩
    refine RecvWorld.carries_of_delivers hpools (fun m hm => ?_) has h hall hdone
    obtain ⟨p, hp, hm⟩ := List.mem_flatMap.mp hm
    rw [hR, hG]
    exact hbounds p hp m hm

/-! ### Two packages -/

/-- Rings of 16 bytes, messages of at most two buffers of four bytes. -/
def smallSendConfig : SendConfig where
  arith := .exact
  recvBufferSize := 4
  maxSGEs := 2
  ibSQSize := 4
  ibSharedSCQSize := 4

/-- A package of node 7, prepared by a new dispatcher; byte `i` of the ring is `i`. -/
def newPackage (posBackRel posFrontRel : Nat) (fcData : UInt8) : SentPackage :=
  let connection : Connection := ⟨7, 1, 16⟩
  let workPackage : NextWorkPackage := ⟨posBackRel, posFrontRel, fcData, 1⟩
  let result := (sendDataPrepareWorkRequests smallSendConfig connection workPackage).run
    (.init smallSendConfig)
  { connection := connection
    workPackage := workPackage
    sendBuffer := fun i => i.toUInt8
    before := .init smallSendConfig
    after := Exec.final result
    chunks := match result with
      | .ok chunks _ => chunks
      | .error _ _ => 0 }

theorem newPackage_prepared {posBackRel posFrontRel : Nat} {fcData : UInt8}
    (hb : posBackRel < 16) (hf : posFrontRel < 16) :
    (newPackage posBackRel posFrontRel fcData).Prepared smallSendConfig := by
  have hpool := SendWorkRequestCtxPool.init_holds 4
  have hA : smallSendConfig.arith.ExactBelow 25 := Arith.exact_exactBelow 25
  obtain ⟨chunks, d', hrun⟩ := run_prepare_of_contexts (.init smallSendConfig) ⟨7, 1, 16⟩
    ⟨posBackRel, posFrontRel, fcData, 1⟩ hA (by decide) (by decide) hpool hb hf
    (show 4 - 0 ≤ (List.range 4).length by decide)
  refine ⟨hb, hf, ⟨_, hpool⟩, ?_⟩
  simp only [newPackage, hrun, Exec.final_ok]

/-- Ten bytes that wrap around with flow control data, then flow control data only. -/
def twoPackages : List SentPackage := [newPackage 10 4 9, newPackage 4 4 5]

/-- The receiver takes the first package's two messages in one batch. -/
def receiveTwoPackages : List RecvAction :=
  RecvWorld.dispatchSteps [] 0 ++
    RecvWorld.dispatchSteps
      [⟨0, .success, ⟨[10, 11, 12, 13, 14, 15, 0, 1], ⟨7, 9⟩⟩⟩,
        ⟨1, .success, ⟨[2, 3], ⟨7, 0⟩⟩⟩] 3 ++
    [.returnBuffers [0, 1, 2]] ++ RecvWorld.dispatchSteps [] 0 ++
    RecvWorld.dispatchSteps [⟨2, .success, ⟨[], ⟨7, 5⟩⟩⟩] 1

theorem transfer_twoPackages : ∃ w,
    Lts.exec (RecvWorld.step RecvWorld.smallRecvConfig) (.init RecvWorld.smallRecvConfig)
      receiveTwoPackages = some w ∧
    (∃ chunks d', (sendDataPrepareWorkRequests smallSendConfig ⟨7, 1, 16⟩ ⟨10, 4, 9, 1⟩).run
      (.init smallSendConfig) = .ok chunks d') ∧
    (∀ p ∈ twoPackages, ∀ m ∈ p.messages, m.bytes.length ≤ 8) ∧
    ∃ groups, w.appended.flatten = groups.flatten ∧
      List.Forall₂ (fun p group => SentPackage.Conveys p group) twoPackages groups := by
  have hmap : (Lts.exec (RecvWorld.step RecvWorld.smallRecvConfig)
      (.init RecvWorld.smallRecvConfig) receiveTwoPackages).map (fun w =>
        (w.arrived, w.unprocessed)) =
      some (twoPackages.flatMap SentPackage.messages, []) := by decide +kernel
  obtain ⟨w, hw, hv⟩ := Option.map_eq_some_iff.mp hmap
  simp only [Prod.mk.injEq] at hv
  have hprepared : ∀ p ∈ twoPackages, p.Prepared smallSendConfig := by
    intro p hp
    rcases List.mem_cons.mp hp with rfl | hp
    · exact newPackage_prepared (by decide) (by decide)
    · rw [List.mem_singleton.mp hp]
      exact newPackage_prepared (by decide) (by decide)
  obtain ⟨hreturns, hreceives⟩ := transfer smallSendConfig RecvWorld.smallRecvConfig rfl
    (by decide) rfl rfl (RecvConfig.poolExact_of_lt rfl (by decide))
  exact ⟨w, hw, hreturns _ _ _ _ (SendWorkRequestCtxPool.init_holds 4) (by decide) (by decide)
      (by decide),
    hreceives twoPackages receiveTwoPackages w hprepared (by decide +kernel) hw hv.1 hv.2⟩

end Ibdxnet.Msgrc
