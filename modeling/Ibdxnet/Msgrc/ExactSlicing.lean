import Ibdxnet.Msgrc.SendSteps
import Mathlib.Algebra.Order.Floor.Div

/-!
# Exact slicing

A package is a region of `T` bytes and a flow control byte; the send queue has
room for `Q` more work requests.  Over the integers, and with a context for
each of them, `__SendDataPrepareWorkRequests` builds

    min Q ⌈T / M⌉                        requests, if there is data,
    min Q 1                              if there is only flow control data,

request `i` of `min M (T - i * M)` bytes (`map_sendSize_requests`).  The theorem
`slicing_exact` says this of the entries of `m_sendWrs` and of the contexts, and
that posting hands over these entries and no others.
-/

namespace Ibdxnet.Msgrc

open Ibdxnet.Con Sys

/-! ## Counting requests -/

/-- The number of work requests for `total` bytes and a flow control byte. -/
def numRequests (room total M : Nat) (fcData : UInt8) : Nat :=
  if total = 0 then
    if fcData = 0 then 0 else min room 1
  else min room (total ⌈/⌉ M)

theorem ceilDiv_eq_succ {total M : Nat} (hM : 0 < M) (htotal : 0 < total) :
    total ⌈/⌉ M = (total - M) ⌈/⌉ M + 1 := by
  simp only [Nat.ceilDiv_eq_add_pred_div]
  rcases Nat.lt_or_ge M total with h | h
  · have hsum : total + M - 1 = (total - M + M - 1) + M := by omega
    rw [hsum, Nat.add_div_right _ hM]
  · rw [Nat.sub_eq_zero_of_le h, Nat.div_eq_of_lt (show 0 + M - 1 < M by omega)]
    exact Nat.div_eq_of_lt_le (by omega) (by omega)

theorem lt_ceilDiv_iff {total M i : Nat} (hM : 0 < M) : i < total ⌈/⌉ M ↔ i * M < total := by
  rw [← not_le, ceilDiv_le_iff_le_mul hM, not_le, Nat.mul_comm]

theorem numRequests_zero_room (total M : Nat) (fcData : UInt8) :
    numRequests 0 total M fcData = 0 := by
  rw [numRequests]
  split
  · split <;> simp
  · exact Nat.zero_min _

/-- The rest of the region after a first request is sliced without flow control data. -/
theorem numRequests_succ {room total M : Nat} (fcData : UInt8) (hM : 0 < M) (htotal : 0 < total) :
    numRequests (room + 1) total M fcData = numRequests room (total - M) M 0 + 1 := by
  rw [numRequests, if_neg (by omega), ceilDiv_eq_succ hM htotal, numRequests]
  split
  · next hzero =>
    rw [hzero, zero_ceilDiv, if_pos rfl]
    omega
  · omega

section
variable {cfg : SendConfig} {N S M posBack posFront : Nat}

/-- How long the requests are, one after another. -/
theorem map_sendSize_requests (fcData : UInt8) (hA : cfg.arith.ExactBelow N)
    (hMax : cfg.maxRecvBufferSize = M) (hN : S + M < N) (hM : 0 < M) (room : Nat)
    (hb : posBack < S) (hf : posFront < S) :
    (requests cfg S posFront room posBack fcData).map SendRequest.sendSize =
      (List.range (numRequests room (regionLength S posBack posFront) M fcData)).map
        fun i => min M (regionLength S posBack posFront - i * M) := by
  have hzero := (regionLength_eq_zero_iff hf hf).mpr rfl
  refine requests_ring_induction hA hMax hN hf
    (motive := fun room posBack fcData rs => rs.map SendRequest.sendSize =
      (List.range (numRequests room (regionLength S posBack posFront) M fcData)).map
        fun i => min M (regionLength S posBack posFront - i * M))
    ?zero ?empty ?flowControl ?data room fcData hb
  case zero =>
    intro posBack fcData
    rw [numRequests_zero_room]
    rfl
  case empty =>
    intro room
    rw [numRequests, if_pos hzero, if_pos rfl]
    rfl
  case flowControl =>
    intro room fcData hfc
    have hone : min (room + 1) 1 = 1 := by omega
    rw [numRequests, if_pos hzero, if_neg hfc, hone, hzero]
    simp [flowControlRequest]
  case data =>
    intro room posBack fcData next rs _ hpiece ih
    have hsub : regionLength S posBack posFront - min M (regionLength S posBack posFront) =
        regionLength S posBack posFront - M := by omega
    rw [List.map_cons, hpiece.sendSize, ih, hpiece.rest, hsub,
      numRequests_succ fcData hM hpiece.total_pos, List.range_succ_eq_map, List.map_cons,
      List.map_map, Nat.zero_mul, Nat.sub_zero]
    congr 1
    apply List.map_congr_left
    intro i _
    rw [Function.comp_apply, Nat.succ_mul, Nat.sub_sub, Nat.add_comm M]

theorem length_requests (fcData : UInt8) (hA : cfg.arith.ExactBelow N)
    (hMax : cfg.maxRecvBufferSize = M) (hN : S + M < N) (hM : 0 < M) (room : Nat)
    (hb : posBack < S) (hf : posFront < S) :
    (requests cfg S posFront room posBack fcData).length =
      numRequests room (regionLength S posBack posFront) M fcData := by
  have h := congrArg List.length
    (map_sendSize_requests fcData hA hMax hN hM room hb hf)
  simpa using h

theorem totalBytesToProcess_eq (hA : cfg.arith.ExactBelow N) (hS : S < N) (hb : posBack < S)
    (hf : posFront < S) :
    totalBytesToProcess cfg S posBack posFront = regionLength S posBack posFront := by
  rw [totalBytesToProcess, regionLength_eq hb hf]
  by_cases hwrap : posBack > posFront
  · rw [if_pos hwrap, if_neg (Nat.not_le.mpr hwrap), hA.sub (by omega) hS, hA.add (by omega)]
  · rw [if_neg hwrap, if_pos (Nat.not_lt.mp hwrap), hA.sub (Nat.not_lt.mp hwrap) (by omega)]

/-- The contexts together are filled in with all bytes covered. -/
theorem sum_sendSize_requests (fcData : UInt8) (hA : cfg.arith.ExactBelow N)
    (hMax : cfg.maxRecvBufferSize = M) (hN : S + M < N) (hM : 0 < M) (room : Nat)
    (hb : posBack < S) (hf : posFront < S) :
    ((requests cfg S posFront room posBack fcData).map SendRequest.sendSize).sum =
      min (room * M) (regionLength S posBack posFront) := by
  have hoffsets : (requests cfg S posFront room posBack fcData).flatMap SendRequest.offsets = _ :=
    flatMap_offsets_requests hA hMax hN room hb hf
  have hlen := congrArg List.length hoffsets
  rw [Ring.length_window, List.length_flatMap] at hlen
  rw [← hlen]
  congr 1
  apply List.map_congr_left
  intro r hr
  exact (requests_bounds hA hMax hN hM room hb hf r hr).2.2.symm

end

/-- The flow control data of the requests, one after another. -/
theorem map_fcData_requests {cfg : SendConfig} {S posFront : Nat} (room posBack : Nat)
    (fcData : UInt8) {i : Nat} {r : SendRequest}
    (h : (requests cfg S posFront room posBack fcData)[i]? = some r) :
    r.fcData = if i = 0 then fcData else 0 := by
  rcases @requests_fcData cfg S posFront room posBack fcData with
    hnil | ⟨r₀, rs, hrs, hfirst, hothers⟩
  · rw [hnil] at h
    cases h
  · rw [hrs] at h
    cases i with
    | zero =>
      rw [List.getElem?_cons_zero, Option.some.injEq] at h
      rw [← h, hfirst, if_pos rfl]
    | succ i =>
      rw [List.getElem?_cons_succ] at h
      rw [hothers r (List.mem_of_getElem? h), if_neg (Nat.succ_ne_zero i)]

theorem sum_fcData_requests {cfg : SendConfig} {S posFront : Nat} (room posBack : Nat)
    (fcData : UInt8) :
    ((requests cfg S posFront room posBack fcData).map fun r => r.fcData.toUInt16.toNat).sum =
      if requests cfg S posFront room posBack fcData = [] then 0 else fcData.toNat := by
  rcases @requests_fcData cfg S posFront room posBack fcData with
    hnil | ⟨r₀, rs, hrs, hfirst, hothers⟩
  · rw [hnil]
    rfl
  · have hzero : (rs.map fun r => r.fcData.toUInt16.toNat) = rs.map fun _ => 0 := by
      apply List.map_congr_left
      intro r hr
      rw [hothers r hr]
      rfl
    rw [hrs, List.map_cons, List.sum_cons, hzero, hfirst, if_neg (List.cons_ne_nil _ _)]
    simp

/-! ## Packages -/

/-- The number of bytes of a package in a ring of this size. -/
def NextWorkPackage.total (workPackage : NextWorkPackage) (sizeBuffer : Nat) : Nat :=
  regionLength sizeBuffer workPackage.posBackRel workPackage.posFrontRel

/-- The free places in the send queue to a node. -/
def SendDispatcher.room (d : SendDispatcher) (cfg : SendConfig) (nodeId : NodeId) : Nat :=
  cfg.ibSQSize.toNat - d.sendQueuePending nodeId

/-- A package with its positions inside the ring and a chunk limit that is not
zero, over the integers or over words in which nothing overflows. -/
structure InRing (cfg : SendConfig) (connection : Connection) (workPackage : NextWorkPackage) :
    Prop where
  arith : ∃ N, cfg.arith.ExactBelow N ∧ connection.sendBufferSize + cfg.maxRecvBufferSize < N
  chunk : 0 < cfg.maxRecvBufferSize
  posBack : workPackage.posBackRel < connection.sendBufferSize
  posFront : workPackage.posFrontRel < connection.sendBufferSize

namespace InRing

variable {cfg : SendConfig} {connection : Connection} {workPackage : NextWorkPackage}

theorem of_exact (harith : cfg.arith = .exact) (hM : 0 < cfg.maxRecvBufferSize)
    (hb : workPackage.posBackRel < connection.sendBufferSize)
    (hf : workPackage.posFrontRel < connection.sendBufferSize) :
    InRing cfg connection workPackage where
  arith := ⟨_, harith ▸ Arith.exact_exactBelow _, Nat.lt_succ_self _⟩
  chunk := hM
  posBack := hb
  posFront := hf

variable (h : InRing cfg connection workPackage) (d : SendDispatcher)

include h in
theorem map_sendSize :
    (packageRequests cfg d connection workPackage).map SendRequest.sendSize =
      (List.range (numRequests (d.room cfg workPackage.nodeId)
          (workPackage.total connection.sendBufferSize) cfg.maxRecvBufferSize
          workPackage.flowControlData)).map fun i =>
        min cfg.maxRecvBufferSize
          (workPackage.total connection.sendBufferSize - i * cfg.maxRecvBufferSize) := by
  obtain ⟨N, hA, hN⟩ := h.arith
  exact map_sendSize_requests _ hA rfl hN h.chunk _ h.posBack h.posFront

include h in
theorem length_packageRequests :
    (packageRequests cfg d connection workPackage).length =
      numRequests (d.room cfg workPackage.nodeId) (workPackage.total connection.sendBufferSize)
        cfg.maxRecvBufferSize workPackage.flowControlData := by
  obtain ⟨N, hA, hN⟩ := h.arith
  exact length_requests _ hA rfl hN h.chunk _ h.posBack h.posFront

include h in
theorem sum_sendSize :
    ((packageRequests cfg d connection workPackage).map SendRequest.sendSize).sum =
      min (d.room cfg workPackage.nodeId * cfg.maxRecvBufferSize)
        (workPackage.total connection.sendBufferSize) := by
  obtain ⟨N, hA, hN⟩ := h.arith
  exact sum_sendSize_requests _ hA rfl hN h.chunk _ h.posBack h.posFront

include h in
theorem flatMap_offsets :
    (packageRequests cfg d connection workPackage).flatMap SendRequest.offsets =
      Ring.window id connection.sendBufferSize workPackage.posBackRel
        (min (d.room cfg workPackage.nodeId * cfg.maxRecvBufferSize)
          (workPackage.total connection.sendBufferSize)) := by
  obtain ⟨N, hA, hN⟩ := h.arith
  exact flatMap_offsets_requests hA rfl hN _ h.posBack h.posFront

include h in
theorem sendSize_le : ∀ r ∈ packageRequests cfg d connection workPackage,
    r.sendSize ≤ cfg.maxRecvBufferSize ∧ r.length = r.sendSize := by
  obtain ⟨N, hA, hN⟩ := h.arith
  intro r hr
  obtain ⟨hle, -, hlen⟩ := requests_bounds hA rfl hN h.chunk _ h.posBack h.posFront r hr
  refine ⟨hle, ?_⟩
  rw [← hlen, SendRequest.offsets, List.length_flatMap, SendRequest.length]
  simp

include h in
theorem numBytes :
    (packageResults cfg connection workPackage
        (packageRequests cfg d connection workPackage)).numBytesPosted =
      min (d.room cfg workPackage.nodeId * cfg.maxRecvBufferSize)
        (workPackage.total connection.sendBufferSize) ∧
    (packageResults cfg connection workPackage
        (packageRequests cfg d connection workPackage)).numBytesNotPosted =
      workPackage.total connection.sendBufferSize -
        min (d.room cfg workPackage.nodeId * cfg.maxRecvBufferSize)
          (workPackage.total connection.sendBufferSize) := by
  obtain ⟨N, hA, hN⟩ := h.arith
  have hlt := regionLength_lt workPackage.posFrontRel h.posBack
  have hb := h.posBack
  have hf := h.posFront
  have hposted : (packageRequests cfg d connection workPackage).foldl (addSendSize cfg.arith) 0 =
      0 + min (d.room cfg workPackage.nodeId * cfg.maxRecvBufferSize)
        (workPackage.total connection.sendBufferSize) :=
    foldl_addSendSize_requests hA rfl hN _ hb hf (by omega)
  rw [Nat.zero_add] at hposted
  have htotal := totalBytesToProcess_eq hA (by omega) hb hf
  refine ⟨hposted, ?_⟩
  simp only [packageResults, htotal, NextWorkPackage.total]
  rw [hposted]
  exact hA.sub (Nat.min_le_right _ _) (Nat.lt_of_lt_of_le hlt (by omega))

end InRing

/-! ## What is prepared -/

/-- The first `n` entries of `m_sendWrs`, their contexts and the results of a
package, where the send queue had this much room. -/
structure SlicedExactly (cfg : SendConfig) (connection : Connection)
    (workPackage : NextWorkPackage) (room n : Nat) (d : SendDispatcher) : Prop where
  count : n = numRequests room (workPackage.total connection.sendBufferSize)
    cfg.maxRecvBufferSize workPackage.flowControlData
  covered : ((List.range n).map d.sendWrs).flatMap IbvSendWr.offsets =
    Ring.window id connection.sendBufferSize workPackage.posBackRel
      (min (room * cfg.maxRecvBufferSize) (workPackage.total connection.sendBufferSize))
  /-- Every data request but the last of the region is full. -/
  full : ∀ i, i < n →
    i + 1 < workPackage.total connection.sendBufferSize ⌈/⌉ cfg.maxRecvBufferSize →
    (d.sendWrs i).length = cfg.maxRecvBufferSize
  length_le : ∀ i, i < n → (d.sendWrs i).length ≤ cfg.maxRecvBufferSize
  length_pos : 0 < workPackage.total connection.sendBufferSize → ∀ i, i < n →
    0 < (d.sendWrs i).length
  flowControlOnly : workPackage.total connection.sendBufferSize = 0 → ∀ i, i < n →
    (d.sendWrs i).length = 0
  flowControlData : ∀ i, i < n → (d.sendWrs i).immData.flowControlData =
    if i = 0 then workPackage.flowControlData else 0
  /-- Posted is what the requests cover. -/
  numBytesPosted : d.prevWorkPackageResults.numBytesPosted =
    min (room * cfg.maxRecvBufferSize) (workPackage.total connection.sendBufferSize)
  numBytes : d.prevWorkPackageResults.numBytesPosted +
    d.prevWorkPackageResults.numBytesNotPosted = workPackage.total connection.sendBufferSize
  fcData : d.prevWorkPackageResults.fcDataPosted.toNat +
    d.prevWorkPackageResults.fcDataNotPosted.toNat = workPackage.flowControlData.toNat
  sendSizes : ((List.range n).map fun i => (d.ctxs (d.sendWrs i).wrId).sendSize).sum =
    d.prevWorkPackageResults.numBytesPosted
  ctxFcData : ((List.range n).map fun i => (d.ctxs (d.sendWrs i).wrId).fcData.toNat).sum =
    d.prevWorkPackageResults.fcDataPosted.toNat

section
variable {cfg : SendConfig} {connection : Connection} {workPackage : NextWorkPackage}
  {d : SendDispatcher} {ids : List Nat} {p : SendWorkRequestCtxPool}

/-- The entries of `m_sendWrs` once a package is prepared. -/
theorem map_sendWrs_prepare
    (hlen : ids.length = (packageRequests cfg d connection workPackage).length) :
    (List.range ids.length).map (d.prepare cfg connection workPackage ids p).sendWrs =
      List.zipWith (fun ctx r => r.toWr connection.sourceNodeId ctx) ids
        (packageRequests cfg d connection workPackage) := by
  rw [hlen, List.range_eq_range']
  exact Updates.map_updateAll List.nodup_range' (by simp [hlen])

theorem map_ctxs_prepare (hnodup : ids.Nodup)
    (hlen : ids.length = (packageRequests cfg d connection workPackage).length) :
    ids.map (d.prepare cfg connection workPackage ids p).ctxs =
      (packageRequests cfg d connection workPackage).map fun r => r.toCtx workPackage.nodeId :=
  Updates.map_updateAll hnodup (by simp [hlen])

/-- What an entry carries is what its request was built with. -/
theorem map_sendWrs_eq {β : Type} {f : IbvSendWr → β} {g : SendRequest → β}
    (hlen : ids.length = (packageRequests cfg d connection workPackage).length)
    (hwr : ∀ ctx r, f (SendRequest.toWr r connection.sourceNodeId ctx) = g r) :
    ((List.range ids.length).map fun i =>
        f ((d.prepare cfg connection workPackage ids p).sendWrs i)) =
      (packageRequests cfg d connection workPackage).map g := by
  have hmap := congrArg (List.map f) (map_sendWrs_prepare (p := p) hlen)
  rw [List.map_map, List.map_zipWith] at hmap
  rw [show (fun i => f ((d.prepare cfg connection workPackage ids p).sendWrs i)) =
    f ∘ (d.prepare cfg connection workPackage ids p).sendWrs from rfl, hmap]
  apply List.ext_getElem
  · rw [List.length_zipWith, hlen, Nat.min_self, List.length_map]
  · intro i h1 h2
    rw [List.getElem_zipWith, List.getElem_map, hwr]

/-- What the contexts of the entries carry. -/
theorem map_ctxs_eq {β : Type} {f : SendWorkRequestCtx → β} {g : SendRequest → β}
    (hnodup : ids.Nodup)
    (hlen : ids.length = (packageRequests cfg d connection workPackage).length)
    (hctx : ∀ r, f (SendRequest.toCtx r workPackage.nodeId) = g r) :
    ((List.range ids.length).map fun i =>
        f ((d.prepare cfg connection workPackage ids p).ctxs
          ((d.prepare cfg connection workPackage ids p).sendWrs i).wrId)) =
      (packageRequests cfg d connection workPackage).map g := by
  have hids : (List.range ids.length).map
      (fun i => ((d.prepare cfg connection workPackage ids p).sendWrs i).wrId) = ids := by
    have hmap := congrArg (List.map IbvSendWr.wrId) (map_sendWrs_prepare (p := p) hlen)
    rw [List.map_map, List.map_zipWith] at hmap
    refine hmap.trans ?_
    apply List.ext_getElem
    · rw [List.length_zipWith, hlen, Nat.min_self]
    · intro i h1 h2
      rw [List.getElem_zipWith]
      rfl
  have hctxs := congrArg (List.map f) (map_ctxs_prepare (p := p) hnodup hlen)
  generalize d.prepare cfg connection workPackage ids p = d' at hids hctxs ⊢
  have hmap : ((List.range ids.length).map fun i => f (d'.ctxs (d'.sendWrs i).wrId)) =
      (ids.map d'.ctxs).map f := by
    conv_rhs => rw [← hids, List.map_map, List.map_map]
    rfl
  rw [hmap, hctxs, List.map_map]
  apply List.map_congr_left
  intro r _
  rw [Function.comp_apply, hctx]

/-- The dispatcher after a package is prepared. -/
theorem InRing.slicedExactly (h : InRing cfg connection workPackage) (hnodup : ids.Nodup)
    (hlen : ids.length = (packageRequests cfg d connection workPackage).length) :
    SlicedExactly cfg connection workPackage (d.room cfg workPackage.nodeId) ids.length
      (d.prepare cfg connection workPackage ids p) := by
  have hcount := hlen.trans (h.length_packageRequests d)
  have hsizes := h.map_sendSize d
  have hoffsets := map_sendWrs_eq (p := p) (f := IbvSendWr.offsets) (g := SendRequest.offsets)
    hlen fun _ _ => rfl
  have hlengths := map_sendWrs_eq (p := p) (f := IbvSendWr.length) (g := SendRequest.length)
    hlen fun _ _ => rfl
  have hfcs := map_sendWrs_eq (p := p) (f := fun wr => wr.immData.flowControlData)
    (g := SendRequest.fcData) hlen fun _ _ => rfl
  have hsend := map_ctxs_eq (p := p) (f := SendWorkRequestCtx.sendSize)
    (g := SendRequest.sendSize) hnodup hlen fun _ => rfl
  have hctxfc := map_ctxs_eq (p := p) (f := fun ctx => ctx.fcData.toNat)
    (g := fun r => r.fcData.toUInt16.toNat) hnodup hlen fun _ => rfl
  -- request `i` has `min M (T - i * M)` bytes
  have hlength : ∀ i, i < ids.length →
      ((d.prepare cfg connection workPackage ids p).sendWrs i).length =
        min cfg.maxRecvBufferSize
          (workPackage.total connection.sendBufferSize - i * cfg.maxRecvBufferSize) := by
    intro i hi
    have hmap : (packageRequests cfg d connection workPackage).map SendRequest.length =
        (packageRequests cfg d connection workPackage).map SendRequest.sendSize :=
      List.map_congr_left fun r hr => (h.sendSize_le d r hr).2
    have hi' := congrArg (fun sizes => sizes[i]?) ((hlengths.trans hmap).trans hsizes)
    simpa only [List.getElem?_map, List.getElem?_range hi, List.getElem?_range (hcount ▸ hi),
      Option.map_some, Option.some.injEq] using hi'
  have hM := h.chunk
  have hlt : 0 < workPackage.total connection.sendBufferSize → ∀ i, i < ids.length →
      i * cfg.maxRecvBufferSize < workPackage.total connection.sendBufferSize := by
    intro htotal i hi
    rw [hcount, numRequests, if_neg (by omega)] at hi
    exact (lt_ceilDiv_iff hM).mp (by omega)
  obtain ⟨hposted, hnotPosted⟩ := h.numBytes d
  have hfc : ((packageRequests cfg d connection workPackage).map
      fun r => r.fcData.toUInt16.toNat).sum =
        if packageRequests cfg d connection workPackage = [] then 0
        else workPackage.flowControlData.toNat := sum_fcData_requests _ _ _
  exact {
    count := hcount
    covered := by
      rw [List.flatMap_map, ← h.flatMap_offsets d]
      rw [List.flatMap_def, List.flatMap_def]
      exact congrArg List.flatten hoffsets
    full := fun i hi hfull => by
      have hnext := (lt_ceilDiv_iff hM).mp hfull
      rw [Nat.succ_mul] at hnext
      rw [hlength i hi]
      omega
    length_le := fun i hi => by
      rw [hlength i hi]
      exact Nat.min_le_left _ _
    length_pos := fun htotal i hi => by
      have := hlt htotal i hi
      rw [hlength i hi]
      omega
    flowControlOnly := fun htotal i hi => by
      rw [hlength i hi, htotal]
      omega
    flowControlData := fun i hi => by
      have hi' := congrArg (fun fcs => fcs[i]?) hfcs
      simp only [List.getElem?_map, List.getElem?_range hi, Option.map_some] at hi'
      obtain ⟨r, hr, hr'⟩ := Option.map_eq_some_iff.mp hi'.symm
      rw [← hr']
      exact map_fcData_requests _ _ _ hr
    numBytesPosted := hposted
    numBytes := by
      simp only [SendDispatcher.prepare, hposted, hnotPosted]
      omega
    fcData := by
      simp only [SendDispatcher.prepare, packageResults]
      split <;> simp
    sendSizes := by
      rw [hsend, h.sum_sendSize d]
      exact hposted.symm
    ctxFcData := by
      rw [hctxfc]
      refine hfc.trans ?_
      simp only [SendDispatcher.prepare, packageResults]
      split <;> rfl }

end

namespace SendWorld

variable {cfg : SendConfig} {connection : Connection} {workPackage : NextWorkPackage}
  {d : SendDispatcher} {w : SendWorld} {ids xs : List Nat} {p : SendWorkRequestCtxPool}

/-- What is posted for a prepared package are its entries of `m_sendWrs`,
whatever the entries behind them hold. -/
theorem run_post_prepare (env : DispatchEnv) (hpost : env.postSend = .success)
    (hlen : ids.length = (packageRequests cfg d connection workPackage).length)
    (hpos : 0 < ids.length) :
    ∃ w', (sendDataPostWorkRequests cfg env connection ids.length).run
        { w with dispatcher := d.prepare cfg connection workPackage ids p } = .ok () w' ∧
      (w'.posted.map fun posted => posted.wr.unlinked) =
        (List.range ids.length).map (d.prepare cfg connection workPackage ids p).sendWrs := by
  have hwrs := map_sendWrs_prepare (p := p) hlen
  have hwrslen := congrArg List.length hwrs
  rw [List.length_map, List.length_range] at hwrslen
  have hfuel : ids.length ≤ cfg.ibSQSize.toNat := by
    rw [hlen, packageRequests]
    exact Nat.le_trans (length_requests_le _ _ _) (Nat.sub_le _ _)
  have hunlinked : ∀ wr ∈ List.zipWith
      (fun ctx r => SendRequest.toWr r connection.sourceNodeId ctx) ids
      (packageRequests cfg d connection workPackage), wr.unlinked = wr := by
    intro wr hwr
    obtain ⟨i, hi, rfl⟩ := List.getElem_of_mem hwr
    rw [List.getElem_zipWith]
    rfl
  have hposted := workRequestList_posted (hwrslen ▸ hpos) (hwrslen ▸ hfuel)
    (hwrslen ▸ hwrs) hunlinked
  rw [← hwrslen, ← hwrs] at hposted
  unfold sendDataPostWorkRequests
  simp only [EStateM.run_bind, EStateM.run_modify, EStateM.run_get, hpost, EStateM.run_set]
  refine ⟨_, rfl, ?_⟩
  rw [List.map_map]
  exact hposted

/-- **Slicing is exact.**  With the positions inside the ring and enough
contexts in the pool, a package is cut into its requests, and posting them
hands over just these, in order. -/
theorem slicing_exact (w : SendWorld) (env : DispatchEnv) (h : InRing cfg connection workPackage)
    (hpool : w.dispatcher.workRequestCtxPool.Holds xs) (hnodup : xs.Nodup)
    (hfree : numRequests (w.dispatcher.room cfg workPackage.nodeId)
      (workPackage.total connection.sendBufferSize) cfg.maxRecvBufferSize
      workPackage.flowControlData ≤ xs.length) :
    ∃ n d', (sendDataPrepareWorkRequests cfg connection workPackage).run w.dispatcher = .ok n d' ∧
      SlicedExactly cfg connection workPackage (w.dispatcher.room cfg workPackage.nodeId) n d' ∧
      (0 < n → env.postSend = .success →
        ∃ w', (sendDataPostWorkRequests cfg env connection n).run { w with dispatcher := d' } =
            .ok () w' ∧
          (w'.posted.map fun posted => posted.wr.unlinked) =
            (List.range n).map d'.sendWrs) := by
  have hcount := h.length_packageRequests w.dispatcher
  obtain ⟨n, d', hrun⟩ := run_prepare_isOk hpool (by rw [hcount]; exact hfree)
    fun r hr => (h.sendSize_le w.dispatcher r hr).1
  obtain ⟨ids, rest, p, rfl, hlen, -, -, rfl, rfl⟩ := run_prepare_ok hpool hrun
  refine ⟨_, _, hrun, h.slicedExactly (List.nodup_append.mp hnodup).1 hlen, ?_⟩
  intro hpos hpost
  exact run_post_prepare env hpost hlen hpos

/-- Nine bytes around the end of a ring of ten, and a flow control byte, in
pieces of at most four. -/
theorem slicing_exact_ten :
    ∃ n d', (sendDataPrepareWorkRequests ⟨.exact, 2, 2, 8, 8⟩ ⟨1, 2, 10⟩ ⟨7, 6, 5, 2⟩).run
        (SendWorld.init ⟨.exact, 2, 2, 8, 8⟩).dispatcher = .ok n d' ∧
      SlicedExactly ⟨.exact, 2, 2, 8, 8⟩ ⟨1, 2, 10⟩ ⟨7, 6, 5, 2⟩ 8 n d' ∧ n = 3 := by
  have h : InRing ⟨.exact, 2, 2, 8, 8⟩ ⟨1, 2, 10⟩ ⟨7, 6, 5, 2⟩ :=
    .of_exact rfl (by decide) (by decide) (by decide)
  obtain ⟨n, d', hrun, hsliced, -⟩ := slicing_exact (SendWorld.init ⟨.exact, 2, 2, 8, 8⟩)
    ⟨none, .ok ⟨1, 2, 10⟩, .success, none⟩ h (SendWorkRequestCtxPool.init_holds 8)
    List.nodup_range (by decide)
  exact ⟨n, d', hrun, hsliced, hsliced.count⟩

end SendWorld

end Ibdxnet.Msgrc
