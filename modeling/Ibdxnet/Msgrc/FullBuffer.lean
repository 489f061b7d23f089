import Ibdxnet.Msgrc.ExactSlicing

/-!
# Full send buffers

`MsgrcLoopbackSystem::GetNextDataToSend` always offers the whole send buffer of
`S` bytes: from position 0 to position `S`, which is no position of the ring.
The loop sets its position to 0 at the end of the buffer, never meets the front
and goes on as long as the send queue has room.  With

    n = ⌈S / M⌉

the first `n` requests send the buffer from its start to its end, and the next
one starts at a byte that was sent already.  So each byte is sent at most once,
and the numbers of bytes reported add up to `S`, exactly when the send queue has
room for at most `n` work requests (`full_buffer_once_iff`).  All numbers are
`uint32_t` here, whatever their size.
-/

namespace Ibdxnet.Msgrc

open Ibdxnet.Con Sys

/-- The package of `MsgrcLoopbackSystem::GetNextDataToSend` for a target node. -/
def fullBufferPackage (sendBufferSize : Nat) (nodeId : NodeId) : NextWorkPackage where
  posBackRel := 0
  posFrontRel := sendBufferSize
  flowControlData := 0
  nodeId := nodeId

/-! ## One chunk -/

section
variable {cfg : SendConfig} {S M p : Nat}

theorem nextSlice_full (A : Arith) (hp : p < S) :
    nextSlice A S M p S = if A.add p M > S then ⟨S, false, 6⟩ else ⟨A.add p M, false, 7⟩ := by
  rw [nextSlice, if_neg (Nat.not_lt.mpr (Nat.le_of_lt hp))]

/-- A chunk that ends before the end of the buffer. -/
theorem dataRequest_full (harith : cfg.arith = .uint32) (hMax : cfg.maxRecvBufferSize = M)
    (hS : S < 2 ^ 32) (hp : p + M < S) :
    (dataRequest cfg S S p 0).offsets = List.range' p M ∧
      (dataRequest cfg S S p 0).sendSize = M ∧
      nextPosBack S (dataRequest cfg S S p 0) = p + M := by
  have hadd : Arith.uint32.add p M = p + M := Nat.mod_eq_of_lt (by omega)
  have hsub : Arith.uint32.sub (p + M) p = M := by
    rw [Arith.uint32_exactBelow.sub (by omega) (by omega)]
    omega
  simp only [dataRequest, hMax, harith, nextSlice_full .uint32 (show p < S by omega), hadd,
    if_neg (show ¬ p + M > S by omega), if_true, hsub, SendRequest.offsets, List.flatMap_cons,
    List.flatMap_nil, List.append_nil, nextPosBack, if_neg (show p + M ≠ S by omega), true_and]

/-- The chunk that reaches the end.  Where its end is beyond the range of the
words it is not cut off at the end of the buffer. -/
theorem dataRequest_last (harith : cfg.arith = .uint32) (hMax : cfg.maxRecvBufferSize = M)
    (hM : M < 2 ^ 32) (hS : S < 2 ^ 32) (hp : p < S) (hend : S ≤ p + M) :
    ∃ len, S - p ≤ len ∧ len ≤ M ∧ (dataRequest cfg S S p 0).offsets = List.range' p len ∧
      (dataRequest cfg S S p 0).sendSize = len ∧ (p + len) % 2 ^ 32 ≤ S ∧
      nextPosBack S (dataRequest cfg S S p 0) < S := by
  rcases Nat.lt_or_ge (p + M) (2 ^ 32) with hlt | hge
  · have hadd : Arith.uint32.add p M = p + M := Nat.mod_eq_of_lt hlt
    have hposEnd : (nextSlice .uint32 S M p S).posEnd = S ∧
        (nextSlice .uint32 S M p S).wrapAround = false := by
      rw [nextSlice_full .uint32 hp, hadd]
      split
      · exact ⟨rfl, rfl⟩
      · exact ⟨by simp only; omega, rfl⟩
    have hsub : Arith.uint32.sub S p = S - p := Arith.uint32_exactBelow.sub (by omega) hS
    refine ⟨S - p, Nat.le_refl _, by omega, ?_, ?_, ?_, ?_⟩
    · simp only [dataRequest, hMax, harith, hposEnd.1, hposEnd.2, if_true, hsub,
        SendRequest.offsets, List.flatMap_cons, List.flatMap_nil, List.append_nil]
    · simp only [dataRequest, hMax, harith, hposEnd.1, hposEnd.2, if_true, hsub]
    · rw [Nat.add_sub_cancel' (Nat.le_of_lt hp)]
      exact Nat.mod_le S _
    · simp only [dataRequest, hMax, harith, hposEnd.1, hposEnd.2, if_true, nextPosBack]
      omega
  · have hadd : Arith.uint32.add p M = p + M - 2 ^ 32 := by
      simp only [Arith.uint32]
      omega
    have hsub : Arith.uint32.sub (p + M - 2 ^ 32) p = M := by
      simp only [Arith.uint32]
      omega
    refine ⟨M, by omega, Nat.le_refl _, ?_⟩
    simp only [dataRequest, hMax, harith, nextSlice_full .uint32 hp, hadd,
      if_neg (show ¬ p + M - 2 ^ 32 > S by omega), if_true, hsub, SendRequest.offsets,
      List.flatMap_cons, List.flatMap_nil, List.append_nil, nextPosBack,
      if_neg (show p + M - 2 ^ 32 ≠ S by omega), true_and]
    omega

end

/-! ## All chunks -/

section
variable {cfg : SendConfig} {S M p : Nat}

/-- The loop never stops by itself. -/
theorem length_requests_full (harith : cfg.arith = .uint32) (hMax : cfg.maxRecvBufferSize = M)
    (hM : M < 2 ^ 32) (hS : S < 2 ^ 32) (room : Nat) (hp : p < S) :
    (requests cfg S S room p 0).length = room ∧
      ∀ r ∈ requests cfg S S room p 0, r.sendSize ≤ M ∧ r.length = r.sendSize := by
  induction room generalizing p with
  | zero => simp [requests]
  | succ room ih =>
    rw [requests_succ room (Nat.ne_of_lt hp), List.length_cons, List.forall_mem_cons]
    have hchunk : ∃ len, len ≤ M ∧ (dataRequest cfg S S p 0).offsets = List.range' p len ∧
        (dataRequest cfg S S p 0).sendSize = len ∧
        nextPosBack S (dataRequest cfg S S p 0) < S := by
      rcases Nat.lt_or_ge (p + M) S with hlt | hge
      · obtain ⟨hoff, hsize, hnext⟩ := dataRequest_full harith hMax hS hlt
        exact ⟨M, Nat.le_refl M, hoff, hsize, hnext ▸ hlt⟩
      · obtain ⟨len, -, hle, hoff, hsize, -, hnext⟩ := dataRequest_last harith hMax hM hS hp hge
        exact ⟨len, hle, hoff, hsize, hnext⟩
    obtain ⟨len, hle, hoff, hsize, hnext⟩ := hchunk
    obtain ⟨hlen, hall⟩ := ih hnext
    have hlength := congrArg List.length hoff
    rw [SendRequest.offsets, List.length_flatMap, List.length_range'] at hlength
    refine ⟨by rw [hlen], ⟨hsize ▸ hle, ?_⟩, hall⟩
    rw [hsize, ← hlength, SendRequest.length]
    simp

/-- Chunks that end before the end of the buffer follow each other. -/
theorem requests_full (harith : cfg.arith = .uint32) (hMax : cfg.maxRecvBufferSize = M)
    (hS : S < 2 ^ 32) (room e : Nat) (hp : p + room * M < S) :
    requests cfg S S (room + e) p 0 =
        requests cfg S S room p 0 ++ requests cfg S S e (p + room * M) 0 ∧
      (requests cfg S S room p 0).flatMap SendRequest.offsets = List.range' p (room * M) := by
  induction room generalizing p with
  | zero => simp [requests]
  | succ room ih =>
    rw [Nat.succ_mul] at hp
    have hne : p ≠ S := by omega
    obtain ⟨hoff, -, hnext⟩ := dataRequest_full (p := p) harith hMax hS (by omega)
    obtain ⟨happend, hflat⟩ := ih (p := p + M) (by omega)
    have hroom : room + 1 + e = (room + e) + 1 := by omega
    have hsum : p + (room + 1) * M = p + M + room * M := by rw [Nat.succ_mul]; omega
    rw [hroom, requests_succ _ hne, requests_succ _ hne, hnext, happend, hsum]
    refine ⟨rfl, ?_⟩
    rw [List.flatMap_cons, hoff, hflat, Nat.succ_mul, Nat.add_comm (room * M)]
    exact List.range'_append_1

/-- The chunk that reaches the end of the buffer is followed by one that starts inside. -/
theorem requests_end (harith : cfg.arith = .uint32) (hMax : cfg.maxRecvBufferSize = M)
    (hM : M < 2 ^ 32) (hS : S < 2 ^ 32) {m : Nat} (hm : m * M < S) (hend : S ≤ m * M + M)
    (e : Nat) :
    ∃ r len q, requests cfg S S (m + 1 + e) 0 0 =
        requests cfg S S m 0 0 ++ r :: requests cfg S S e q 0 ∧
      q < S ∧ r.offsets = List.range' (m * M) len ∧ S ≤ m * M + len ∧
      (m * M + len) % 2 ^ 32 ≤ S := by
  obtain ⟨len, hge, -, hoff, -, hle, hnext⟩ := dataRequest_last harith hMax hM hS hm hend
  obtain ⟨happend, -⟩ := requests_full (p := 0) harith hMax hS m (e + 1) (by omega)
  refine ⟨_, len, _, ?_, hnext, hoff, by omega, hle⟩
  rw [show m + 1 + e = m + (e + 1) by omega, happend, Nat.zero_add,
    requests_succ e (Nat.ne_of_lt hm)]

/-- Each byte of the buffer is in at most one place, and the request with the last one is the
last request. -/
def OffsetsOnce (S : Nat) (offsets : List (List Nat)) : Prop :=
  (offsets.flatten.filter fun offset => offset < S).Nodup ∧
    ∀ i os, offsets[i]? = some os → S - 1 ∈ os → i + 1 = offsets.length

/-- Chunks up to and including the one that reaches the end. -/
theorem offsetsOnce_of_le (harith : cfg.arith = .uint32) (hMax : cfg.maxRecvBufferSize = M)
    (hM : 0 < M) (hM' : M < 2 ^ 32) (hS : 0 < S) (hS' : S < 2 ^ 32) {room : Nat}
    (hroom : room ≤ S ⌈/⌉ M) :
    OffsetsOnce S ((requests cfg S S room 0 0).map SendRequest.offsets) ∧
      ((requests cfg S S room 0 0).map SendRequest.length).sum % 2 ^ 32 ≤ S := by
  have hlength := (length_requests_full harith hMax hM' hS' room hS).1
  have hsum : ((requests cfg S S room 0 0).map SendRequest.length).sum =
      ((requests cfg S S room 0 0).flatMap SendRequest.offsets).length := by
    rw [List.length_flatMap]
    congr 1
    apply List.map_congr_left
    intro r _
    simp [SendRequest.length, SendRequest.offsets, List.length_flatMap]
  rw [hsum, OffsetsOnce, List.length_map, hlength, ← List.flatMap_def]
  rcases Nat.lt_or_ge (room * M) S with hlt | hge
  · -- the end is not reached
    obtain ⟨-, hflat⟩ := requests_full (p := 0) harith hMax hS' room 0 (by omega)
    rw [hflat, List.length_range']
    refine ⟨⟨List.Nodup.filter _ List.nodup_range', fun i os hi hmem => ?_⟩, ?_⟩
    · have hmem' : S - 1 ∈ (requests cfg S S room 0 0).flatMap SendRequest.offsets := by
        rw [List.flatMap_def]
        exact List.mem_flatten_of_mem (List.mem_of_getElem? hi) hmem
      rw [hflat, List.mem_range'_1] at hmem'
      omega
    · rw [Nat.mod_eq_of_lt (by omega)]
      exact Nat.le_of_lt hlt
  · -- the last request reaches the end
    obtain ⟨m, rfl⟩ : ∃ m, room = m + 1 :=
      Nat.exists_eq_succ_of_ne_zero fun h => by rw [h, Nat.zero_mul] at hge; omega
    have hm := (lt_ceilDiv_iff hM).mp (Nat.lt_of_succ_le hroom)
    rw [Nat.succ_mul] at hge
    obtain ⟨-, hflat⟩ := requests_full (p := 0) harith hMax hS' m 0 (by omega)
    obtain ⟨hfront, -⟩ := length_requests_full harith hMax hM' hS' m hS
    obtain ⟨r, len, q, hrs, -, hoff, -, hle⟩ := requests_end harith hMax hM' hS' hm hge 0
    have hall : (requests cfg S S (m + 1) 0 0).flatMap SendRequest.offsets =
        List.range' 0 (m * M + len) := by
      rw [show m + 1 = m + 1 + 0 from rfl, hrs, List.flatMap_append, hflat, List.flatMap_cons, hoff]
      rw [show requests cfg S S 0 q 0 = [] from rfl, List.flatMap_nil, List.append_nil]
      have hrange := @List.range'_append_1 0 (m * M) len
      rwa [Nat.zero_add] at hrange
    rw [hall, List.length_range']
    refine ⟨⟨List.Nodup.filter _ List.nodup_range', fun i os hi hmem => ?_⟩, hle⟩
    rcases Nat.lt_or_ge i m with him | him
    · -- an earlier request ends before the last byte
      rw [show m + 1 = m + 1 + 0 from rfl, hrs, List.map_append,
        List.getElem?_append_left (by rw [List.length_map, hfront]; exact him)] at hi
      have hmem' : S - 1 ∈ (requests cfg S S m 0 0).flatMap SendRequest.offsets := by
        rw [List.flatMap_def]
        exact List.mem_flatten_of_mem (List.mem_of_getElem? hi) hmem
      rw [hflat, List.mem_range'_1] at hmem'
      omega
    · obtain ⟨hlt, -⟩ := List.getElem?_eq_some_iff.mp hi
      rw [List.length_map, hlength] at hlt
      omega

/-- One chunk more starts at a byte that was sent. -/
theorem not_offsetsOnce_of_lt (harith : cfg.arith = .uint32) (hMax : cfg.maxRecvBufferSize = M)
    (hM : 0 < M) (hM' : M < 2 ^ 32) (hS : 0 < S) (hS' : S < 2 ^ 32) {room : Nat}
    (hroom : S ⌈/⌉ M < room) :
    ¬ OffsetsOnce S ((requests cfg S S room 0 0).map SendRequest.offsets) := by
  rintro ⟨honce, -⟩
  obtain ⟨m, hn⟩ : ∃ m, S ⌈/⌉ M = m + 1 := ⟨_, ceilDiv_eq_succ hM hS⟩
  obtain ⟨e, rfl⟩ : ∃ e, room = m + 1 + (e + 1) := ⟨room - (m + 2), by omega⟩
  have hm := (lt_ceilDiv_iff hM).mp (show m < S ⌈/⌉ M by omega)
  have hend := mt (lt_ceilDiv_iff hM).mpr (show ¬ m + 1 < S ⌈/⌉ M by omega)
  rw [Nat.succ_mul] at hend
  obtain ⟨-, hflat⟩ := requests_full (p := 0) harith hMax hS' m 0 (by omega)
  obtain ⟨r, len, q, hrs, hq, hoff, hlen, -⟩ :=
    requests_end harith hMax hM' hS' hm (Nat.not_lt.mp hend) (e + 1)
  obtain ⟨len', hpos, hoff'⟩ : ∃ len', 0 < len' ∧
      (dataRequest cfg S S q 0).offsets = List.range' q len' := by
    rcases Nat.lt_or_ge (q + M) S with hlt | hge
    · exact ⟨M, hM, (dataRequest_full harith hMax hS' hlt).1⟩
    · obtain ⟨len', hle, -, hoff', -⟩ := dataRequest_last harith hMax hM' hS' hq hge
      exact ⟨len', by omega, hoff'⟩
  -- the byte at `q` is in the first requests and in the one that starts there
  rw [← List.flatMap_def, hrs, List.flatMap_append, hflat, List.flatMap_cons, hoff,
    requests_succ e (Nat.ne_of_lt hq), List.flatMap_cons, hoff', ← List.append_assoc,
    List.filter_append] at honce
  have hfirst : q ∈ (List.range' 0 (m * M) ++ List.range' (m * M) len).filter fun o => o < S := by
    simp only [List.mem_filter, List.mem_append, List.mem_range'_1, decide_eq_true_eq]
    omega
  have hagain : q ∈ List.filter (fun o => o < S) (List.range' q len' ++
      (requests cfg S S e (nextPosBack S (dataRequest cfg S S q 0)) 0).flatMap
        SendRequest.offsets) := by
    simp only [List.mem_filter, List.mem_append, List.mem_range'_1, decide_eq_true_eq]
    omega
  exact (List.nodup_append.mp honce).2.2 q hfirst q hagain rfl

end

/-! ## The theorem -/

/-- What a dispatcher sends of a full buffer, and what it reports: no byte
twice, numbers that add up to the size, and nothing after the last byte. -/
structure SentOnce (S n : Nat) (d : SendDispatcher) : Prop where
  once : ((((List.range n).map d.sendWrs).flatMap IbvSendWr.offsets).filter
    fun offset => offset < S).Nodup
  posted_le : d.prevWorkPackageResults.numBytesPosted ≤ S
  notPosted : d.prevWorkPackageResults.numBytesNotPosted =
    S - d.prevWorkPackageResults.numBytesPosted
  ends : ∀ i, i < n → S - 1 ∈ (d.sendWrs i).offsets → i + 1 = n

section
variable {cfg : SendConfig} {connection : Connection} {nodeId : NodeId} {d d' : SendDispatcher}
  {xs : List Nat} {n : Nat}

theorem maxRecvBufferSize_lt (harith : cfg.arith = .uint32) : cfg.maxRecvBufferSize < 2 ^ 32 := by
  rw [SendConfig.maxRecvBufferSize, harith]
  exact Nat.mod_lt _ (by decide)

/-- The requests for a full buffer. -/
theorem packageRequests_full (nodeId : NodeId) :
    packageRequests cfg d connection (fullBufferPackage connection.sendBufferSize nodeId) =
      requests cfg connection.sendBufferSize connection.sendBufferSize (d.room cfg nodeId) 0 0 :=
  rfl

/-- What is sent once in terms of the requests. -/
theorem sentOnce_prepare_iff {ids : List Nat} {p : SendWorkRequestCtxPool}
    (harith : cfg.arith = .uint32) (hS' : connection.sendBufferSize < 2 ^ 32)
    (hids : ids.length = (packageRequests cfg d connection
      (fullBufferPackage connection.sendBufferSize nodeId)).length) :
    SentOnce connection.sendBufferSize ids.length
        (d.prepare cfg connection (fullBufferPackage connection.sendBufferSize nodeId) ids p) ↔
      OffsetsOnce connection.sendBufferSize ((packageRequests cfg d connection
          (fullBufferPackage connection.sendBufferSize nodeId)).map SendRequest.offsets) ∧
        ((packageRequests cfg d connection
          (fullBufferPackage connection.sendBufferSize nodeId)).map SendRequest.length).sum %
            2 ^ 32 ≤ connection.sendBufferSize := by
  have hoffsets := map_sendWrs_eq (p := p) (f := IbvSendWr.offsets) (g := SendRequest.offsets)
    hids fun _ _ => rfl
  have hlawful : cfg.arith.Lawful := harith ▸ Arith.uint32_lawful
  have hposted : (packageRequests cfg d connection
      (fullBufferPackage connection.sendBufferSize nodeId)).foldl (addSendSize cfg.arith) 0 =
        ((packageRequests cfg d connection (fullBufferPackage connection.sendBufferSize
          nodeId)).map SendRequest.length).sum % 2 ^ 32 := by
    rw [packageRequests_full, foldl_addSendSize_eq hlawful, harith, Arith.norm, Arith.uint32]
    simp only [Nat.zero_add]
  have htotal : totalBytesToProcess cfg connection.sendBufferSize 0 connection.sendBufferSize =
      connection.sendBufferSize := by
    rw [totalBytesToProcess, if_neg (Nat.not_lt_zero _), harith,
      Arith.uint32_exactBelow.sub (Nat.zero_le _) hS', Nat.sub_zero]
  have hflatten : (((List.range ids.length).map (d.prepare cfg connection
      (fullBufferPackage connection.sendBufferSize nodeId) ids p).sendWrs).flatMap
        IbvSendWr.offsets) = ((packageRequests cfg d connection (fullBufferPackage
          connection.sendBufferSize nodeId)).map SendRequest.offsets).flatten := by
    rw [← hoffsets, List.flatMap_map, List.flatMap_def]
  have hat : ∀ i, ((packageRequests cfg d connection (fullBufferPackage
      connection.sendBufferSize nodeId)).map SendRequest.offsets)[i]? =
        if i < ids.length then some ((d.prepare cfg connection (fullBufferPackage
          connection.sendBufferSize nodeId) ids p).sendWrs i).offsets else none := by
    intro i
    rw [← hoffsets, List.getElem?_map]
    split
    · next hi => rw [List.getElem?_range hi, Option.map_some]
    · next hi => rw [List.getElem?_eq_none (by rw [List.length_range]; omega), Option.map_none]
  have hresults : (d.prepare cfg connection (fullBufferPackage connection.sendBufferSize nodeId)
      ids p).prevWorkPackageResults = packageResults cfg connection
        (fullBufferPackage connection.sendBufferSize nodeId) (packageRequests cfg d connection
          (fullBufferPackage connection.sendBufferSize nodeId)) := rfl
  constructor
  · rintro ⟨honce, hle, -, hends⟩
    rw [hresults] at hle
    refine ⟨⟨hflatten ▸ honce, fun i os hi hmem => ?_⟩, hposted ▸ hle⟩
    rw [hat] at hi
    split at hi
    · next hlt =>
      rw [List.length_map, ← hids]
      exact hends i hlt (Option.some.inj hi ▸ hmem)
    · cases hi
  · rintro ⟨⟨honce, hends⟩, hle⟩
    rw [← hposted] at hle
    refine ⟨hflatten ▸ honce, ?_, ?_, fun i hi hmem => ?_⟩
    · rw [hresults]
      exact hle
    · rw [hresults]
      simp only [packageResults, fullBufferPackage, htotal] at hle ⊢
      rw [harith] at hle ⊢
      exact Arith.uint32_exactBelow.sub hle hS'
    · have hlast := hends i _ (by rw [hat, if_pos hi]) hmem
      rwa [List.length_map, ← hids] at hlast

/-- **Full buffers.**  A full buffer is prepared if the pool has a context for
each free place of the send queue; its bytes are sent once, and the numbers of
bytes posted and not posted add up, exactly when the send queue has room for no
more requests than the buffer has chunks. -/
theorem full_buffer_once_iff (harith : cfg.arith = .uint32) (hM : 1 ≤ cfg.maxRecvBufferSize)
    (hS : 1 ≤ connection.sendBufferSize) (hS' : connection.sendBufferSize < 2 ^ 32)
    (hpool : d.workRequestCtxPool.Holds xs) :
    (d.room cfg nodeId ≤ xs.length → ∃ n d', (sendDataPrepareWorkRequests cfg connection
      (fullBufferPackage connection.sendBufferSize nodeId)).run d = .ok n d') ∧
    ∀ n d', (sendDataPrepareWorkRequests cfg connection
        (fullBufferPackage connection.sendBufferSize nodeId)).run d = .ok n d' →
      (SentOnce connection.sendBufferSize n d' ↔
        d.room cfg nodeId ≤ connection.sendBufferSize ⌈/⌉ cfg.maxRecvBufferSize) := by
  have hM' := maxRecvBufferSize_lt harith
  obtain ⟨hlen, hsize⟩ := length_requests_full harith rfl hM' hS' (d.room cfg nodeId) hS
  refine ⟨fun hfree => ?_, fun n d' hrun => ?_⟩
  · refine run_prepare_isOk hpool ?_ fun r hr => ?_
    · rw [packageRequests_full, hlen]
      exact hfree
    · exact (hsize r (packageRequests_full nodeId ▸ hr)).1
  · obtain ⟨ids, rest, p, -, hids, -, -, rfl, rfl⟩ := run_prepare_ok hpool hrun
    rw [sentOnce_prepare_iff harith hS' hids, packageRequests_full]
    constructor
    · rintro ⟨honce, -⟩
      by_contra hlt
      exact not_offsetsOnce_of_lt harith rfl hM hM' hS hS' (Nat.not_le.mp hlt) honce
    · intro hroom
      exact offsetsOnce_of_le harith rfl hM hM' hS hS' hroom

end

/-- A buffer of ten bytes in pieces of four, and room for three requests. -/
theorem full_buffer_once_ten :
    let cfg : SendConfig := ⟨.uint32, 2, 2, 3, 3⟩
    ∃ n d', (sendDataPrepareWorkRequests cfg ⟨1, 2, 10⟩ (fullBufferPackage 10 2)).run
      (.init cfg) = .ok n d' ∧ SentOnce 10 n d' := by
  intro cfg
  obtain ⟨hreturns, hiff⟩ := @full_buffer_once_iff cfg ⟨1, 2, 10⟩ 2 (.init cfg) _ rfl (by decide)
    (by decide) (by decide) (SendWorkRequestCtxPool.init_holds 3)
  obtain ⟨n, d', hrun⟩ := hreturns (by decide)
  exact ⟨n, d', hrun, (hiff n d' hrun).mpr (by decide)⟩

/-- A buffer of four bytes in pieces of four, and room for two requests: it is
sent twice, and the number of bytes not posted is below zero. -/
theorem full_buffer_twice :
    let cfg : SendConfig := ⟨.uint32, 4, 1, 2, 2⟩
    ∃ n d', (sendDataPrepareWorkRequests cfg ⟨1, 2, 4⟩ (fullBufferPackage 4 2)).run (.init cfg) =
        .ok n d' ∧ ¬ SentOnce 4 n d' ∧
      ((List.range n).map d'.sendWrs).flatMap IbvSendWr.offsets = [0, 1, 2, 3, 0, 1, 2, 3] ∧
      d'.prevWorkPackageResults.numBytesPosted = 8 ∧
      d'.prevWorkPackageResults.numBytesNotPosted = 2 ^ 32 - 4 := by
  intro cfg
  have hpool := SendWorkRequestCtxPool.init_holds 2
  obtain ⟨n, d', hrun⟩ := @run_prepare_isOk cfg ⟨1, 2, 4⟩ (fullBufferPackage 4 2) (.init cfg) _
    hpool (by decide) (by decide)
  obtain ⟨ids, rest, p, -, hids, -, -, rfl, rfl⟩ := run_prepare_ok hpool hrun
  have hoffsets := map_sendWrs_eq (p := p) (f := IbvSendWr.offsets) (g := SendRequest.offsets)
    hids fun _ _ => rfl
  have hposted : (SendDispatcher.prepare (.init cfg) cfg ⟨1, 2, 4⟩ (fullBufferPackage 4 2) ids
      p).prevWorkPackageResults.numBytesPosted = 8 := by
    change (packageResults cfg ⟨1, 2, 4⟩ (fullBufferPackage 4 2)
      (packageRequests cfg (.init cfg) ⟨1, 2, 4⟩ (fullBufferPackage 4 2))).numBytesPosted = 8
    decide
  refine ⟨_, _, hrun, fun h => ?_, ?_, hposted, ?_⟩
  · exact absurd (hposted ▸ h.posted_le) (by decide)
  · rw [List.flatMap_map, List.flatMap_def, hoffsets]
    decide
  · change (packageResults cfg ⟨1, 2, 4⟩ (fullBufferPackage 4 2)
      (packageRequests cfg (.init cfg) ⟨1, 2, 4⟩ (fullBufferPackage 4 2))).numBytesNotPosted = _
    decide

end Ibdxnet.Msgrc
