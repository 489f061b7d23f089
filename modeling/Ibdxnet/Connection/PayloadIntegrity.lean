import Ibdxnet.Connection.HostileTraffic

/-!
# Payload integrity

What `_RunLoop` hands to the dispatchers of a packet type, and whether it is part
of the datagram just received.  The receive buffer is reused: behind the bytes
that were received it holds what earlier datagrams left, or was never written.

    every payload is part of its datagram   ↔  no packet is over-declared
    any two histories yield the same data   ↔  the packet is not over-declared

A packet is over-declared when it passes the checks and declares more data than
was received with it.
-/

namespace Ibdxnet.Con

namespace Buffer

/-- The first `length` bytes behind the packet header. -/
def payload (b : Buffer) (length : Nat) : List UInt8 :=
  (List.range length).map fun i => b (sizeOfPaketHeader + i)

variable (b : Buffer)

@[simp] theorem length_payload (n : Nat) : (b.payload n).length = n := by
  simp [payload]

theorem getElem?_payload {n i : Nat} (h : i < n) :
    (b.payload n)[i]? = some (b (sizeOfPaketHeader + i)) := by
  simp [payload, h]

theorem write_of_lt {received : List UInt8} {i : Nat} (h : i < received.length) :
    b.write received i = received[i] := by
  simp [write, h]

theorem write_of_le {received : List UInt8} {i : Nat} (h : received.length ≤ i) :
    b.write received i = b i := by
  simp [write, h]

/-- A payload that was received is behind the header of what was received. -/
theorem payload_write {received : List UInt8} {n : Nat}
    (h : sizeOfPaketHeader + n ≤ received.length) :
    (b.write received).payload n = (received.drop sizeOfPaketHeader).take n := by
  refine List.ext_getElem? fun i => ?_
  by_cases hi : i < n
  · rw [getElem?_payload _ hi, List.getElem?_take_of_lt hi, List.getElem?_drop,
      write_of_lt b (by omega), List.getElem?_eq_getElem]
  · rw [List.getElem?_eq_none (by simpa using hi), List.getElem?_take_eq_none (Nat.le_of_not_lt hi)]

end Buffer

namespace ExchangeManager

/-! ## What the dispatchers get -/

/-- The header and the payload every dispatcher of the packet's type is called
with when `Receive` yields `datagram` into the buffer `b`. -/
def handedOver (b : Buffer) (datagram : List UInt8) : Option (PaketHeader × List UInt8) :=
  let received := datagram.take maxPaketSize
  let recvBuffer := b.write received
  let paketHeader := recvBuffer.paketHeader
  if received.length < sizeOfPaketHeader then
    none
  else if Valid paketHeader then
    some (paketHeader, recvBuffer.payload paketHeader.length.toNat)
  else
    none

/-- The connection data `ConnectionManager::_DispatchExchangeData` copies. -/
def copyData (paketHeader : PaketHeader) (data : List UInt8) : Option (List UInt8) :=
  if paketHeader.paketType = conDataExchgPaketType then
    if paketHeader.length.toNat < sizeOfRemoteConnectionHeader then
      none
    else
      some (data.drop sizeOfRemoteConnectionHeader)
  else
    none

/-- The header of a datagram that holds one. -/
def headerOf (datagram : List UInt8) : PaketHeader :=
  (Buffer.write (fun _ => 0) datagram).paketHeader

/-- The datagram passes the checks of `_RunLoop`. -/
def Accepted (datagram : List UInt8) : Prop :=
  sizeOfPaketHeader ≤ datagram.length ∧ Valid (headerOf datagram)

instance (datagram : List UInt8) : Decidable (Accepted datagram) :=
  inferInstanceAs (Decidable (_ ∧ _))

/-- The packet declares more data than was received with it. -/
def OverDeclared (datagram : List UInt8) : Prop :=
  Accepted datagram ∧
    datagram.length < sizeOfPaketHeader + (headerOf datagram).length.toNat

instance (datagram : List UInt8) : Decidable (OverDeclared datagram) :=
  inferInstanceAs (Decidable (_ ∧ _))

variable (b : Buffer) (datagram : List UInt8)

theorem handedOver_eq :
    handedOver b datagram =
      if Accepted datagram then
        some (headerOf datagram,
          (b.write (datagram.take maxPaketSize)).payload (headerOf datagram).length.toNat)
      else
        none := by
  have hlength : (datagram.take maxPaketSize).length < sizeOfPaketHeader ↔
      datagram.length < sizeOfPaketHeader := by
    simp [maxPaketSize, sizeOfPaketHeader]
  unfold handedOver
  simp only [hlength]
  split
  · next hshort => rw [if_neg fun h : Accepted datagram => Nat.not_le.mpr hshort h.1]
  · next hlong =>
    have hle := Nat.le_of_not_lt hlong
    have hheader : (b.write (datagram.take maxPaketSize)).paketHeader = headerOf datagram :=
      paketHeader_write hle b fun _ => 0
    rw [hheader]
    by_cases hvalid : Valid (headerOf datagram)
    · have haccepted : Accepted datagram := ⟨hle, hvalid⟩
      rw [if_pos hvalid, if_pos haccepted]
    · rw [if_neg hvalid, if_neg fun h : Accepted datagram => hvalid h.2]

/-- A pass of the loop, by what is handed over. -/
theorem run_runLoop (sourceIPV4 : UInt32) (w : ExchangeManager) :
    (runLoop sourceIPV4 datagram).run w =
      let recvBuffer := w.recvBuffer.write (datagram.take maxPaketSize)
      match handedOver w.recvBuffer datagram with
      | some (paketHeader, _) =>
        (dispatchExchangeData sourceIPV4 paketHeader).run { w with recvBuffer }
      | none =>
        .ok () { w with
          recvBuffer
          noDataAvailable :=
            if (datagram.take maxPaketSize).length < sizeOfPaketHeader then true
            else w.noDataAvailable } := by
  simp only [runLoop, handedOver, EStateM.run_bind, EStateM.run_modify, EStateM.run_get,
    Exec.run_ite]
  split
  · rfl
  · split
    · rfl
    · rfl

variable {b datagram}

/-! ## Exactly when it is the datagram's -/

/-- What is accepted fits into the buffer with the data it declares. -/
theorem Accepted.declared_le (h : Accepted datagram) :
    sizeOfPaketHeader + (headerOf datagram).length.toNat ≤ maxPaketSize :=
  h.2.2.2

theorem payload_prefix_iff :
    (∀ paketHeader data, handedOver b datagram = some (paketHeader, data) →
      data <+: (datagram.take maxPaketSize).drop sizeOfPaketHeader) ↔ ¬ OverDeclared datagram := by
  rw [handedOver_eq]
  constructor
  · rintro hpart ⟨haccepted, hover⟩
    have hlength := (hpart _ _ (if_pos haccepted)).length_le
    rw [Buffer.length_payload, List.length_drop, List.length_take] at hlength
    have hheader := haccepted.1
    omega
  · intro hnot paketHeader data h
    split at h
    · next haccepted =>
      rw [Option.some.injEq, Prod.mk.injEq] at h
      obtain ⟨-, rfl⟩ := h
      have hmax := haccepted.declared_le
      have hfits : sizeOfPaketHeader + (headerOf datagram).length.toNat ≤
          (datagram.take maxPaketSize).length := by
        rw [List.length_take]
        exact Nat.le_min.mpr ⟨hmax, Nat.le_of_not_lt fun hover => hnot ⟨haccepted, hover⟩⟩
      rw [Buffer.payload_write b hfits]
      exact List.take_prefix ..
    · cases h

/-- What is handed over of a packet that is not over-declared. -/
theorem handedOver_of_not_overDeclared (b : Buffer) (h : ¬ OverDeclared datagram) :
    handedOver b datagram =
      if Accepted datagram then
        some (headerOf datagram,
          (datagram.drop sizeOfPaketHeader).take (headerOf datagram).length.toNat)
      else
        none := by
  rw [handedOver_eq]
  split
  · next haccepted =>
    have hmax := haccepted.declared_le
    have hfits := Nat.le_of_not_lt fun hover => h ⟨haccepted, hover⟩
    have htake : sizeOfPaketHeader + (headerOf datagram).length.toNat ≤
        (datagram.take maxPaketSize).length := by
      rw [List.length_take]
      exact Nat.le_min.mpr ⟨hmax, hfits⟩
    rw [Buffer.payload_write b htake, List.drop_take, List.take_take,
      Nat.min_eq_left (by omega)]
  · rfl

/-- The first byte that is missing is taken from the buffer. -/
theorem OverDeclared.not_independent (h : OverDeclared datagram) :
    handedOver (fun _ => 0) datagram ≠ handedOver (fun _ => 1) datagram := by
  obtain ⟨haccepted, hover⟩ := h
  have hmax := haccepted.declared_le
  have hheader := haccepted.1
  have htake : datagram.take maxPaketSize = datagram := List.take_of_length_le (by omega)
  intro heq
  rw [handedOver_eq, handedOver_eq, if_pos haccepted, if_pos haccepted, htake,
    Option.some.injEq, Prod.mk.injEq] at heq
  have hmissing : datagram.length - sizeOfPaketHeader < (headerOf datagram).length.toNat := by
    omega
  have hbyte := congrArg (·[datagram.length - sizeOfPaketHeader]?) heq.2
  simp only [Buffer.getElem?_payload _ hmissing, Option.some.injEq] at hbyte
  rw [Buffer.write_of_le _ (by omega), Buffer.write_of_le _ (by omega)] at hbyte
  exact absurd hbyte (by decide)

theorem handedOver_independent_iff :
    (∀ b b' : Buffer, handedOver b datagram = handedOver b' datagram) ↔
      ¬ OverDeclared datagram := by
  constructor
  · exact fun h hover => hover.not_independent (h _ _)
  · intro h b b'
    rw [handedOver_of_not_overDeclared b h, handedOver_of_not_overDeclared b' h]

/-! ## The connect job -/

/-- The exchange data at the start of a payload. -/
def remoteOf (data : List UInt8) : ConnectionExchgData :=
  let b : Buffer := fun i => data.getD (i - sizeOfPaketHeader) 0
  { header := b.remoteConnectionHeader
    data := b.remoteConnectionData
    size := data.length - sizeOfRemoteConnectionHeader }

/-- The connect job is made of the payload. -/
theorem run_dispatchConDataExchg_of_payload {paketHeader : PaketHeader}
    (htype : paketHeader.paketType = conDataExchgPaketType)
    (hlength : sizeOfRemoteConnectionHeader + sizeOfRemoteConnectionData ≤
      paketHeader.length.toNat) (w : ExchangeManager) :
    (dispatchConDataExchg paketHeader).run w =
      (addJob (.connectConnection
        (remoteOf (w.recvBuffer.payload paketHeader.length.toNat)))).run w := by
  have hbyte : ∀ i, 11 ≤ i → i < 29 →
      (w.recvBuffer.payload paketHeader.length.toNat).getD (i - 11) 0 = w.recvBuffer i := by
    intro i hlow hhigh
    have hi : i - 11 < paketHeader.length.toNat := by
      simp only [sizeOfRemoteConnectionHeader, sizeOfRemoteConnectionData] at hlength
      omega
    rw [List.getD_eq_getElem?_getD, Buffer.getElem?_payload _ hi, Option.getD_some]
    congr 1
    simp only [sizeOfPaketHeader]
    omega
  unfold dispatchConDataExchg
  rw [if_pos htype, if_neg (Nat.not_lt.mpr (Nat.le_trans (Nat.le_add_right ..) hlength)),
    EStateM.run_bind, EStateM.run_get]
  simp (disch := decide) only [remoteOf, Buffer.remoteConnectionHeader,
    Buffer.remoteConnectionData, Buffer.uint16At, Buffer.uint32At, hbyte, Buffer.length_payload,
    sizeOfPaketHeader, sizeOfRemoteConnectionHeader]

/-! ## Runs -/

/-- What is handed over in the step is part of the datagram just received. -/
def Intact (w : ExchangeManager) : Action → Prop
  | .receive _ datagram => ∀ paketHeader data,
      handedOver w.recvBuffer datagram = some (paketHeader, data) →
      data.length = paketHeader.length.toNat ∧
        data <+: (datagram.take maxPaketSize).drop sizeOfPaketHeader
  | .manager _ => True

/-- The step does not receive an over-declared packet. -/
def NotOverDeclared (_ : ExchangeManager) : Action → Prop
  | .receive _ datagram => ¬ OverDeclared datagram
  | .manager _ => True

theorem intact_iff (w : ExchangeManager) (a : Action) : Intact w a ↔ NotOverDeclared w a := by
  cases a with
  | receive sourceIPV4 datagram =>
    simp only [Intact, NotOverDeclared, ← payload_prefix_iff (b := w.recvBuffer)]
    refine forall_congr' fun paketHeader => forall_congr' fun data => ?_
    refine imp_congr_right fun h => and_iff_right ?_
    rw [handedOver_eq] at h
    split at h
    · rw [Option.some.injEq, Prod.mk.injEq] at h
      rw [← h.1, ← h.2, Buffer.length_payload]
    · cases h
  | manager a => exact Iff.rfl

/-- The connection data that `ConnectionManager::_DispatchExchangeData` copies
when `Receive` yields `datagram`. -/
def copied (b : Buffer) (datagram : List UInt8) : Option (List UInt8) :=
  (handedOver b datagram).bind fun handed => copyData handed.1 handed.2

/-- The data handed over are the datagram's, and the same after any two
histories, exactly when no packet is over-declared. -/
theorem payload_intact_iff (p : ConnectionManager.Params) (nodes : List Entry) :
    (∀ (recvBuffer : Buffer) (as : List Action),
      Lts.Along step Intact (new p nodes recvBuffer) as ↔
        Lts.Along step NotOverDeclared (new p nodes recvBuffer) as) ∧
    ∀ datagram : List UInt8,
      (∀ (recvBuffer recvBuffer' : Buffer) (as as' : List Action) (w w' : ExchangeManager),
        Lts.exec step (new p nodes recvBuffer) as = some w →
        Lts.exec step (new p nodes recvBuffer') as' = some w' →
        handedOver w.recvBuffer datagram = handedOver w'.recvBuffer datagram ∧
          copied w.recvBuffer datagram = copied w'.recvBuffer datagram) ↔
        ¬ OverDeclared datagram := by
  refine ⟨fun recvBuffer as => ?_, fun datagram => ?_⟩
  · exact Lts.along_congr (I := fun _ => True) (fun w a _ => intact_iff w a)
      (fun _ _ _ _ _ => trivial) trivial
  · constructor
    · intro h
      refine handedOver_independent_iff.mp fun b b' => ?_
      -- every content of the buffer is that of an empty history
      exact (h b b' [] [] _ _ (Lts.exec_nil _) (Lts.exec_nil _)).1
    · intro h recvBuffer recvBuffer' as as' w w' _ _
      have hsame := handedOver_independent_iff.mpr h w.recvBuffer w'.recvBuffer
      exact ⟨hsame, by rw [copied, copied, hsame]⟩

/-! ### A truncated packet -/

/-- The exchange data of node 2. -/
def exampleConData : List UInt8 :=
  examplePaket conDataExchgPaketType 2
    [2, 0, 0, 0, 2, 0, 0x22, 0, 0, 0, 9, 0, 0, 0, 10, 0, 0, 0]

/-- Only the header of the second packet arrives: what it declares is what the
first one left in the buffer, and its copy goes into a connect job. -/
theorem truncated_hands_over_stale :
    ¬ Lts.Along step Intact (new exampleOwn [exampleNode] fun _ => 0)
      [.receive 0x0A000002 exampleConData,
        .receive 0x0A000003 (exampleConData.take sizeOfPaketHeader)] ∧
    ∃ w, Lts.exec step (new exampleOwn [exampleNode] fun _ => 0)
        [.receive 0x0A000002 exampleConData] = some w ∧
      copied w.recvBuffer (exampleConData.take sizeOfPaketHeader) =
        some [9, 0, 0, 0, 10, 0, 0, 0] := by
  have hrun : ((Lts.exec step (new exampleOwn [exampleNode] fun _ => 0)
      [.receive 0x0A000002 exampleConData]).map fun w =>
        copied w.recvBuffer (exampleConData.take sizeOfPaketHeader)) =
      some (some [9, 0, 0, 0, 10, 0, 0, 0]) := by
    decide +kernel
  obtain ⟨w, hw, hcopied⟩ := Option.map_eq_some_iff.mp hrun
  refine ⟨fun halong => ?_, w, hw, hcopied⟩
  have hstep := (Lts.along_append.mp halong).2 w hw
  have hnot := (intact_iff w _).mp (Lts.along_cons.mp hstep).1
  revert hnot
  unfold NotOverDeclared
  decide +kernel

end ExchangeManager

end Ibdxnet.Con
