import Ibdxnet.Lib.LittleEndian
import Ibdxnet.Connection.PayloadIntegrity

/-!
# What is sent is what is dispatched

`ExchangeManager::SendData` on one node and `_RunLoop` on another one, for any
packet types and dispatchers.  The sender lays out the header and the payload by
hand, the receiver cuts them out of its receive buffer:

    bytes of SendData        =  header.bytes ++ payload              (sendData_eq)
    _RunLoop of these bytes  =  one call for each dispatcher          (deliver_paket)

With `__SendConnectionExchgData` on top of the one and `_DispatchExchangeData` on
top of the other, the connection header and data come out of it as they went in.
-/

namespace Ibdxnet.Con

open Sys LittleEndian

/-! ## Packed headers -/

def PaketHeader.bytes (h : PaketHeader) : List UInt8 :=
  bytes32 h.magic ++ [h.paketType] ++ bytes16 h.sourceNodeId ++ bytes32 h.length

def RemoteConnectionHeader.bytes (h : RemoteConnectionHeader) : List UInt8 :=
  bytes16 h.nodeId ++ [.ofBitVec h.exchgFlags, .ofBitVec h.exchgFlagsRemote] ++ bytes16 h.lid ++
    bytes32 h.conManIdent

def RemoteConnectionData.bytes (d : RemoteConnectionData) : List UInt8 :=
  bytes32 d.physicalQPId ++ bytes32 d.psn

@[simp] theorem PaketHeader.length_bytes (h : PaketHeader) :
    h.bytes.length = sizeOfPaketHeader := rfl

@[simp] theorem RemoteConnectionHeader.length_bytes (h : RemoteConnectionHeader) :
    h.bytes.length = sizeOfRemoteConnectionHeader := rfl

@[simp] theorem RemoteConnectionData.length_bytes (d : RemoteConnectionData) :
    d.bytes.length = sizeOfRemoteConnectionData := rfl

/-! ## Packet types -/

/-- `m_paketTypeIdCounter` and `m_dispatcher`, the dispatchers named by `δ`. -/
structure PaketTypes (δ : Type) where
  paketTypeIdCounter : UInt8
  dispatcher : List (List δ)
  /-- `m_dispatcher` is resized with the counter. -/
  resized : dispatcher.length = paketTypeIdCounter.toNat

namespace PaketTypes

variable {δ : Type}

def new : PaketTypes δ := ⟨0, [], rfl⟩

/-- `INVALID_PACKET_TYPE` -/
def invalidPacketType : UInt8 := 0xFF

/-- `GeneratePaketTypeId` -/
def generatePaketTypeId (t : PaketTypes δ) : Except Exception (UInt8 × PaketTypes δ) :=
  if h : t.paketTypeIdCounter = invalidPacketType then
    .error (.illegalState "Out of packet type ids")
  else
    .ok (t.paketTypeIdCounter,
      { paketTypeIdCounter := t.paketTypeIdCounter + 1
        dispatcher := t.dispatcher ++ [[]]
        resized := by
          have hlt : t.paketTypeIdCounter.toNat < 255 := by
            have hne : t.paketTypeIdCounter.toNat ≠ 255 := fun heq => h (UInt8.toNat_inj.mp heq)
            have := t.paketTypeIdCounter.toNat_lt
            omega
          rw [List.length_append, t.resized, UInt8.toNat_add]
          change t.paketTypeIdCounter.toNat + 1 = (t.paketTypeIdCounter.toNat + 1) % 256
          rw [Nat.mod_eq_of_lt (by omega)] })

/-- `AddDispatcher` -/
def addDispatcher (t : PaketTypes δ) (paketType : UInt8) (dispatcher : δ) : PaketTypes δ where
  paketTypeIdCounter := t.paketTypeIdCounter
  dispatcher := t.dispatcher.modify paketType.toNat (· ++ [dispatcher])
  resized := by rw [List.length_modify, t.resized]

/-- `RemoveDispatcher` -/
def removeDispatcher [DecidableEq δ] (t : PaketTypes δ) (paketType : UInt8) (dispatcher : δ) :
    PaketTypes δ where
  paketTypeIdCounter := t.paketTypeIdCounter
  dispatcher := t.dispatcher.modify paketType.toNat (List.erase · dispatcher)
  resized := by rw [List.length_modify, t.resized]

/-- The dispatchers registered for a packet type. -/
def registered (t : PaketTypes δ) (paketType : UInt8) : List δ :=
  t.dispatcher[paketType.toNat]?.getD []

end PaketTypes

/-! ## Sender -/

/-- `memcpy` to a position of a buffer. -/
def Buffer.copyTo (b : Buffer) (offset : Nat) (bytes : List UInt8) : Buffer := fun i =>
  if offset ≤ i then bytes.getD (i - offset) (b i) else b i

namespace ExchangeManager

section
variable {δ : Type}

/-- `SendData`: the bytes given to the socket.  `sendBuffer` is the array on the
stack, which is not initialized; `data` is `none` for a null pointer. -/
def sendData (types : PaketTypes δ) (ownNodeId : NodeId) (sendBuffer : Buffer)
    (paketType : UInt8) (data : Option (List UInt8)) (length : UInt32) :
    Except Exception (List UInt8) :=
  let sendSize := sizeOfPaketHeader + length.toNat
  if paketType ≥ types.paketTypeIdCounter then
    .error (.illegalState "Invalid paket type id: %d")
  else if sendSize ≥ maxPaketSize then
    .error (.illegalState "Send data size exceeds max paket size: %d")
  else
    let header := PaketHeader.mk paketMagic paketType ownNodeId
    let sendBuffer :=
      match data with
      | some data =>
        (sendBuffer.copyTo 0 (header length).bytes).copyTo sizeOfPaketHeader
          (data.take length.toNat)
      | none => sendBuffer.copyTo 0 (header 0).bytes
    .ok ((List.range sendSize).map sendBuffer)

/-! ## Receiver -/

/-- One call of `_DispatchExchangeData`. -/
structure Delivery (δ : Type) where
  dispatcher : δ
  sourceIPV4 : UInt32
  paketHeader : PaketHeader
  /-- the bytes the pointer shows, `none` for a null pointer -/
  data : Option (List UInt8)

/-- The calls `_RunLoop` makes when `Receive` yields `datagram`, in this order. -/
def deliver (types : PaketTypes δ) (recvBuffer : Buffer) (sourceIPV4 : UInt32)
    (datagram : List UInt8) : List (Delivery δ) :=
  let received := datagram.take maxPaketSize
  let recvBuffer := recvBuffer.write received
  if received.length < sizeOfPaketHeader then
    []
  else
    let header := recvBuffer.paketHeader
    if header.magic = paketMagic ∧ header.paketType < types.paketTypeIdCounter ∧
        sizeOfPaketHeader + header.length.toNat ≤ maxPaketSize then
      let data :=
        if header.length > 0 then some (recvBuffer.payload header.length.toNat) else none
      (types.registered header.paketType).map fun it => ⟨it, sourceIPV4, header, data⟩
    else
      []

end

/-! ## Connection exchange data -/

/-- `JobConnectConnection` -/
structure JobConnectConnection where
  remoteConnectionHeader : RemoteConnectionHeader
  remoteConnectionData : List UInt8
  remoteConnectionDataSize : Nat
  deriving DecidableEq, Repr

/-- `__SendConnectionExchgData`, `connectionData` being what
`CreateConnectionExchangeData` writes. -/
def sendConnectionExchgBytes {δ : Type} (types : PaketTypes δ) (ownNodeId : NodeId)
    (sendBuffer : Buffer) (conDataExchgPaketType : UInt8) (header : RemoteConnectionHeader)
    (connectionData : List UInt8) : Except Exception (List UInt8) :=
  sendData types ownNodeId sendBuffer conDataExchgPaketType (some (header.bytes ++ connectionData))
    (.ofNat (sizeOfRemoteConnectionHeader + connectionData.length))

/-- `ConnectionManager::_DispatchExchangeData`: the job it adds. -/
def connectJob (conDataExchgPaketType : UInt8) (paketHeader : PaketHeader)
    (data : Option (List UInt8)) : Except Exception (Option JobConnectConnection) :=
  if paketHeader.paketType = conDataExchgPaketType then
    if paketHeader.length.toNat < sizeOfRemoteConnectionHeader then
      .error (.illegalState "Exchg data invalid packet header length, source %s")
    else
      .ok (some
        { remoteConnectionHeader := (remoteOf (data.getD [])).header
          remoteConnectionData := (data.getD []).drop sizeOfRemoteConnectionHeader
          remoteConnectionDataSize := paketHeader.length.toNat - sizeOfRemoteConnectionHeader })
  else
    .ok none

end ExchangeManager

/-! ## Lemmas -/

namespace PaketTypes

variable {δ : Type} (t : PaketTypes δ)

/-- A dispatcher is registered behind the ones of its type. -/
theorem registered_addDispatcher {paketType : UInt8} (h : paketType < t.paketTypeIdCounter)
    (dispatcher : δ) :
    (t.addDispatcher paketType dispatcher).registered paketType =
      t.registered paketType ++ [dispatcher] := by
  have hlt : paketType.toNat < t.dispatcher.length := by
    rw [t.resized]
    exact UInt8.lt_iff_toNat_lt.mp h
  simp [registered, addDispatcher, List.getElem?_eq_getElem hlt]

/-- Other types keep theirs. -/
theorem registered_addDispatcher_of_ne {paketType other : UInt8} (h : paketType ≠ other)
    (dispatcher : δ) :
    (t.addDispatcher paketType dispatcher).registered other = t.registered other := by
  have hne : paketType.toNat ≠ other.toNat := mt UInt8.toNat_inj.mp h
  simp [registered, addDispatcher, hne]

end PaketTypes

namespace Buffer

variable (b : Buffer)

@[simp] theorem copyTo_nil (offset : Nat) : b.copyTo offset [] = b := by
  funext i
  simp [copyTo]

/-- Two pieces written one behind the other. -/
theorem map_range_copyTo (xs ys : List UInt8) :
    (List.range (xs.length + ys.length)).map ((b.copyTo 0 xs).copyTo xs.length ys) = xs ++ ys := by
  refine List.ext_getElem (by simp) fun i h1 h2 => ?_
  rw [List.length_map, List.length_range] at h1
  rw [List.getElem_map, List.getElem_range, copyTo]
  by_cases hi : xs.length ≤ i
  · have hlt : i - xs.length < ys.length := by omega
    rw [if_pos hi, List.getElem_append_right hi]
    simp [hlt]
  · have hlt : i < xs.length := Nat.not_le.mp hi
    rw [if_neg hi, List.getElem_append_left hlt]
    simp [copyTo, hlt]

theorem paketHeader_write_bytes (h : PaketHeader) (payload : List UInt8) :
    (b.write (h.bytes ++ payload)).paketHeader = h := by
  have hmagic : (b.write (h.bytes ++ payload)).uint32At 0 = h.magic := word32_bytes32 h.magic
  have htype : b.write (h.bytes ++ payload) 4 = h.paketType := rfl
  have hnode : (b.write (h.bytes ++ payload)).uint16At 5 = h.sourceNodeId :=
    word16_bytes16 h.sourceNodeId
  have hlength : (b.write (h.bytes ++ payload)).uint32At 7 = h.length := word32_bytes32 h.length
  rw [paketHeader, hmagic, htype, hnode, hlength]

/-- The connection header at the start of a payload. -/
theorem remoteConnectionHeader_of_bytes (h : RemoteConnectionHeader) (connectionData : List UInt8)
    (hb : ∀ i, i < sizeOfRemoteConnectionHeader →
      b (sizeOfPaketHeader + i) = (h.bytes ++ connectionData).getD i 0) :
    b.remoteConnectionHeader = h := by
  have hnode : b.uint16At sizeOfPaketHeader = h.nodeId := by
    rw [uint16At, hb 1 (by decide), ← Nat.add_zero sizeOfPaketHeader, hb 0 (by decide)]
    exact word16_bytes16 h.nodeId
  have hlid : b.uint16At (sizeOfPaketHeader + 4) = h.lid := by
    rw [uint16At, hb 4 (by decide), Nat.add_assoc, hb (4 + 1) (by decide)]
    exact word16_bytes16 h.lid
  have hident : b.uint32At (sizeOfPaketHeader + 6) = h.conManIdent := by
    rw [uint32At, hb 6 (by decide), Nat.add_assoc, hb (6 + 1) (by decide), Nat.add_assoc,
      hb (6 + 2) (by decide), Nat.add_assoc, hb (6 + 3) (by decide)]
    exact word32_bytes32 h.conManIdent
  rw [remoteConnectionHeader, hnode, hb 2 (by decide), hb 3 (by decide), hlid, hident]
  rfl

end Buffer

namespace ExchangeManager

variable {δ : Type}

/-- The header and the payload, one behind the other. -/
theorem sendData_eq {types : PaketTypes δ} {ownNodeId : NodeId} {sendBuffer : Buffer}
    {paketType : UInt8} {data : Option (List UInt8)} {length : UInt32}
    (htype : paketType < types.paketTypeIdCounter)
    (hdata : (data.getD []).length = length.toNat)
    (hsize : sizeOfPaketHeader + length.toNat < maxPaketSize) :
    sendData types ownNodeId sendBuffer paketType data length =
      .ok ((PaketHeader.mk paketMagic paketType ownNodeId length).bytes ++ data.getD []) := by
  have htype' : ¬ paketType ≥ types.paketTypeIdCounter := UInt8.not_le.mpr htype
  rw [sendData, if_neg htype', if_neg (Nat.not_le.mpr hsize)]
  cases data with
  | none =>
    rw [Option.getD_none, List.length_nil] at hdata
    have hzero : length = 0 := UInt32.toNat_inj.mp hdata.symm
    have hcopy := sendBuffer.map_range_copyTo []
      (PaketHeader.mk paketMagic paketType ownNodeId 0).bytes
    rw [List.length_nil, Nat.zero_add, List.nil_append, PaketHeader.length_bytes,
      Buffer.copyTo_nil] at hcopy
    subst hzero
    rw [Option.getD_none, List.append_nil]
    exact congrArg Except.ok hcopy
  | some payload =>
    rw [Option.getD_some] at hdata ⊢
    have hcopy := sendBuffer.map_range_copyTo
      (PaketHeader.mk paketMagic paketType ownNodeId length).bytes payload
    rw [PaketHeader.length_bytes, hdata] at hcopy
    simp only [List.take_of_length_le (Nat.le_of_eq hdata), hcopy]

/-- A packet that fits into the receive buffer, in the receive buffer. -/
theorem write_paket {header : PaketHeader} {payload : List UInt8}
    (hlength : payload.length = header.length.toNat)
    (hsize : sizeOfPaketHeader + header.length.toNat ≤ maxPaketSize) (recvBuffer : Buffer) :
    let received := (header.bytes ++ payload).take maxPaketSize
    ¬ received.length < sizeOfPaketHeader ∧ (recvBuffer.write received).paketHeader = header ∧
      (recvBuffer.write received).payload header.length.toNat = payload := by
  have hreceived : (header.bytes ++ payload).length = sizeOfPaketHeader + header.length.toNat := by
    rw [List.length_append, PaketHeader.length_bytes, hlength]
  simp only [List.take_of_length_le (Nat.le_trans (Nat.le_of_eq hreceived) hsize)]
  refine ⟨by omega, recvBuffer.paketHeader_write_bytes header payload, ?_⟩
  rw [Buffer.payload_write recvBuffer (by omega), List.drop_left' header.length_bytes,
    List.take_of_length_le (Nat.le_of_eq hlength)]

/-- One call for each dispatcher of the packet's type. -/
theorem deliver_paket {types : PaketTypes δ} {header : PaketHeader} {payload : List UInt8}
    (hmagic : header.magic = paketMagic) (htype : header.paketType < types.paketTypeIdCounter)
    (hlength : payload.length = header.length.toNat)
    (hsize : sizeOfPaketHeader + header.length.toNat ≤ maxPaketSize) (recvBuffer : Buffer)
    (sourceIPV4 : UInt32) :
    deliver types recvBuffer sourceIPV4 (header.bytes ++ payload) =
      (types.registered header.paketType).map fun it =>
        ⟨it, sourceIPV4, header, if header.length = 0 then none else some payload⟩ := by
  obtain ⟨hlong, hheader, hpayload⟩ := write_paket hlength hsize recvBuffer
  simp only [deliver, if_neg hlong, hheader, hmagic, htype, hsize, true_and, if_true, hpayload]
  refine congrArg (List.map · _) (funext fun it => ?_)
  by_cases hzero : header.length = 0
  · simp [hzero]
  · have hpos : header.length > 0 := UInt32.pos_iff_ne_zero.mpr hzero
    rw [if_pos hpos, if_neg hzero]

theorem remoteOf_header (header : RemoteConnectionHeader) (connectionData : List UInt8) :
    (remoteOf (header.bytes ++ connectionData)).header = header := by
  refine Buffer.remoteConnectionHeader_of_bytes _ header connectionData fun i _ => ?_
  rw [Nat.add_sub_cancel_left]

/-- The exchange data of the connection manager, read back. -/
theorem remoteOf_bytes (remote : ConnectionExchgData)
    (hsize : remote.size = sizeOfRemoteConnectionData) :
    remoteOf (remote.header.bytes ++ remote.data.bytes) = remote := by
  have hheader := remoteOf_header remote.header remote.data.bytes
  have hdata : (remoteOf (remote.header.bytes ++ remote.data.bytes)).data = remote.data :=
    congrArg₂ RemoteConnectionData.mk (word32_bytes32 remote.data.physicalQPId)
      (word32_bytes32 remote.data.psn)
  have hlength : (remoteOf (remote.header.bytes ++ remote.data.bytes)).size = remote.size :=
    hsize.symm
  generalize remoteOf (remote.header.bytes ++ remote.data.bytes) = r at hheader hdata hlength
  obtain ⟨header, data, size⟩ := r
  obtain ⟨rfl, rfl, rfl⟩ : header = remote.header ∧ data = remote.data ∧ size = remote.size :=
    ⟨hheader, hdata, hlength⟩
  rfl

/-- The connection header and data in front of a dispatcher. -/
theorem connectJob_bytes {paketHeader : PaketHeader} {conDataExchgPaketType : UInt8}
    (htype : paketHeader.paketType = conDataExchgPaketType) (header : RemoteConnectionHeader)
    (connectionData : List UInt8)
    (hlength : paketHeader.length.toNat = sizeOfRemoteConnectionHeader + connectionData.length) :
    connectJob conDataExchgPaketType paketHeader (some (header.bytes ++ connectionData)) =
      .ok (some ⟨header, connectionData, connectionData.length⟩) := by
  rw [connectJob, if_pos htype, if_neg (by omega), Option.getD_some, remoteOf_header,
    List.drop_left' header.length_bytes, hlength, Nat.add_sub_cancel_left]

/-! ## Main result -/

/-- **What is sent is what is dispatched.**  The packet of `SendData` is handed to
every dispatcher of its type, as it was sent; and a packet of
`__SendConnectionExchgData` becomes the connect job with its header and data. -/
theorem exchange_round_trip {sender receiver : PaketTypes δ} {paketType : UInt8}
    (hsender : paketType < sender.paketTypeIdCounter)
    (hreceiver : paketType < receiver.paketTypeIdCounter) (ownNodeId : NodeId)
    (sendBuffer : Buffer) :
    (∀ (data : Option (List UInt8)) (length : UInt32), (data.getD []).length = length.toNat →
      sizeOfPaketHeader + length.toNat < maxPaketSize →
      ∃ datagram, sendData sender ownNodeId sendBuffer paketType data length = .ok datagram ∧
        ∀ recvBuffer sourceIPV4, deliver receiver recvBuffer sourceIPV4 datagram =
          (receiver.registered paketType).map fun it =>
            ⟨it, sourceIPV4, ⟨paketMagic, paketType, ownNodeId, length⟩,
              if length = 0 then none else some (data.getD [])⟩) ∧
    ∀ (header : RemoteConnectionHeader) (connectionData : List UInt8),
      sizeOfPaketHeader + (sizeOfRemoteConnectionHeader + connectionData.length) < maxPaketSize →
      ∃ datagram, sendConnectionExchgBytes sender ownNodeId sendBuffer paketType header
          connectionData = .ok datagram ∧
        ∀ recvBuffer sourceIPV4,
          (deliver receiver recvBuffer sourceIPV4 datagram).map
              (fun call => (call.dispatcher, connectJob paketType call.paketHeader call.data)) =
            (receiver.registered paketType).map
              fun it => (it, .ok (some ⟨header, connectionData, connectionData.length⟩)) := by
  refine ⟨fun data length hdata hsize => ?_, fun header connectionData hsize => ?_⟩
  · exact ⟨_, sendData_eq hsender hdata hsize, fun recvBuffer sourceIPV4 =>
      deliver_paket rfl hreceiver hdata (Nat.le_of_lt hsize) recvBuffer sourceIPV4⟩
  · have hlength : (UInt32.ofNat (sizeOfRemoteConnectionHeader + connectionData.length)).toNat =
        sizeOfRemoteConnectionHeader + connectionData.length := by
      rw [UInt32.toNat_ofNat']
      have hmax : maxPaketSize < 2 ^ 32 := by decide
      exact Nat.mod_eq_of_lt (by omega)
    have hdata : ((some (header.bytes ++ connectionData)).getD []).length =
        (UInt32.ofNat (sizeOfRemoteConnectionHeader + connectionData.length)).toNat := by
      rw [hlength, Option.getD_some, List.length_append, header.length_bytes]
    have hne : UInt32.ofNat (sizeOfRemoteConnectionHeader + connectionData.length) ≠ 0 := by
      intro hzero
      have hpos : 0 < sizeOfRemoteConnectionHeader := by decide
      rw [hzero, UInt32.toNat_zero] at hlength
      omega
    refine ⟨_, sendData_eq hsender hdata (by rwa [hlength]), fun recvBuffer sourceIPV4 => ?_⟩
    rw [deliver_paket rfl hreceiver hdata (by rw [hlength]; exact Nat.le_of_lt hsize), List.map_map]
    refine congrArg (List.map · _) (funext fun it => ?_)
    simp only [Function.comp_apply, if_neg hne, Option.getD_some]
    exact congrArg (Prod.mk it) (connectJob_bytes rfl header connectionData hlength)

/-! ## The dispatchers of the system -/

inductive Dispatcher where
  | discoveryManager
  | connectionManager
  deriving DecidableEq, Repr

/-- The packet types once the discovery manager and then the connection manager
are constructed. -/
def conTypes : PaketTypes Dispatcher where
  paketTypeIdCounter := paketTypeIdCounter
  dispatcher := [[.discoveryManager], [.discoveryManager], [.connectionManager]]
  resized := rfl

/-- The constructors generate the types and register their managers. -/
theorem conTypes_eq :
    (do
      let (discoverReq, t) ← PaketTypes.generatePaketTypeId PaketTypes.new
      let (discoverResp, t) ← t.generatePaketTypeId
      let t := t.addDispatcher discoverReq .discoveryManager
      let t := t.addDispatcher discoverResp .discoveryManager
      let (conDataExchg, t) ← t.generatePaketTypeId
      return (discoverReq, discoverResp, conDataExchg,
        t.addDispatcher conDataExchg .connectionManager)) =
      (.ok (discoverReqExchgPaketType, discoverRespExchgPaketType, conDataExchgPaketType,
        conTypes) : Except Exception _) := rfl

/-- Two bytes for the connection manager, in a receive buffer that was in use. -/
theorem exchange_round_trip_conTypes :
    ∃ datagram, sendData conTypes 2 (fun _ => 0) conDataExchgPaketType (some [5, 7]) 2 =
        .ok datagram ∧
      deliver conTypes (fun _ => 0xAB) 0x0A000002 datagram =
        [⟨.connectionManager, 0x0A000002, ⟨paketMagic, conDataExchgPaketType, 2, 2⟩,
          some [5, 7]⟩] := by
  obtain ⟨datagram, hsend, hdeliver⟩ := (@exchange_round_trip _ conTypes conTypes
    conDataExchgPaketType (by decide) (by decide) 2 fun _ => 0).1 (some [5, 7]) 2 rfl (by decide)
  exact ⟨datagram, hsend, hdeliver (fun _ => 0xAB) 0x0A000002⟩

/-- What `deliver` hands to the managers is what the receive loop hands over. -/
theorem deliver_conTypes (recvBuffer : Buffer) (sourceIPV4 : UInt32) (datagram : List UInt8) :
    deliver conTypes recvBuffer sourceIPV4 datagram =
      match handedOver recvBuffer datagram with
      | some (paketHeader, payload) =>
        (conTypes.registered paketHeader.paketType).map fun it =>
          ⟨it, sourceIPV4, paketHeader, if paketHeader.length > 0 then some payload else none⟩
      | none => [] := by
  simp only [deliver, handedOver]
  split
  · rfl
  · change (if Valid _ then _ else _) = _
    split
    · rfl
    · rfl

/-- A pass of the receive loop hands over a packet that was sent as it was sent. -/
theorem handedOver_paket {header : PaketHeader} {payload : List UInt8} (hvalid : Valid header)
    (hlength : payload.length = header.length.toNat) (b : Buffer) :
    handedOver b (header.bytes ++ payload) = some (header, payload) := by
  obtain ⟨hlong, hheader, hpayload⟩ := write_paket hlength hvalid.2.2 b
  simp only [handedOver, if_neg hlong, hheader, if_pos hvalid, hpayload]

/-- What the connection manager records as sent arrives as that connect job. -/
theorem run_runLoop_exchgData (w : ExchangeManager) (ownNodeId : NodeId) (sendBuffer : Buffer)
    (remote : ConnectionExchgData) (hsize : remote.size = sizeOfRemoteConnectionData) :
    ∃ datagram, sendConnectionExchgBytes conTypes ownNodeId sendBuffer conDataExchgPaketType
        remote.header remote.data.bytes = .ok datagram ∧
      ∀ sourceIPV4, (runLoop sourceIPV4 datagram).run w =
        (addJob (.connectConnection remote)).run
          { w with recvBuffer := w.recvBuffer.write (datagram.take maxPaketSize) } := by
  have hlength : (remote.header.bytes ++ remote.data.bytes).length = (18 : UInt32).toNat := by
    rw [List.length_append, remote.header.length_bytes, remote.data.length_bytes]
    rfl
  have hmax : sizeOfPaketHeader + (18 : UInt32).toNat < maxPaketSize := by decide
  have hsend : sendConnectionExchgBytes conTypes ownNodeId sendBuffer conDataExchgPaketType
      remote.header remote.data.bytes =
      .ok ((PaketHeader.mk paketMagic conDataExchgPaketType ownNodeId 18).bytes ++
        (remote.header.bytes ++ remote.data.bytes)) :=
    sendData_eq (by decide) hlength hmax
  refine ⟨_, hsend, fun sourceIPV4 => ?_⟩
  generalize hpaket : PaketHeader.mk paketMagic conDataExchgPaketType ownNodeId 18 = header
  have htype : header.paketType = conDataExchgPaketType := by rw [← hpaket]
  have hlen : header.length = 18 := by rw [← hpaket]
  have hvalid : Valid header := by
    refine ⟨by rw [← hpaket], by rw [htype]; decide, by rw [hlen]; exact Nat.le_of_lt hmax⟩
  have hlength' : (remote.header.bytes ++ remote.data.bytes).length = header.length.toNat := by
    rw [hlen]
    exact hlength
  obtain ⟨-, -, hpayload⟩ := write_paket hlength' hvalid.2.2 w.recvBuffer
  rw [run_runLoop, handedOver_paket hvalid hlength']
  simp only [dispatchExchangeData, if_pos htype]
  rw [run_dispatchConDataExchg_of_payload htype (by rw [hlen]; decide)]
  simp only [hpayload, remoteOf_bytes remote hsize]

end ExchangeManager

end Ibdxnet.Con
