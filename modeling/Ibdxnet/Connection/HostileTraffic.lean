import Ibdxnet.Connection.ConnectionIds
import Ibdxnet.Connection.ExchangeManager
import Ibdxnet.Connection.LinkInvariant

/-!
# Hostile traffic

Datagrams of any bytes and any length, and the jobs they cause: which of them
end the process by an exception or index a table out of range.

    no step of a run faults  ↔  every step is harmless       (along_survives_iff)

A datagram does harm when it is accepted as exchange data and declares less than
a connection header.  A job does harm when it reaches a table with the node id
0xFFFF, when it has to connect with data shorter than a queue pair's, when it has
to allocate and cannot, or, for a create job, when there is nothing to send.
-/

namespace Ibdxnet.Con

namespace ConnectionManager

/-! ## What every state keeps -/

/-- A node with a connection is discovered, and no null pointer is to be
discovered again. -/
structure Known (m : ConnectionManager) : Prop where
  discovered : ∀ {n}, m.connections n ≠ none → m.discoveryManager.nodeInfo n ≠ none
  listed : none ∉ m.discoveryManager.infoToGet

variable {m m' : ConnectionManager} {env : Environment} {n : NodeId}

theorem Known.congr (h : m.Known) (hd : m'.discoveryManager = m.discoveryManager)
    (hc : m'.connections = m.connections) : m'.Known where
  discovered := by
    intro k
    rw [hd, hc]
    exact h.discovered
  listed := by
    rw [hd]
    exact h.listed

/-- Only a discovered node gets a connection. -/
theorem Known.update (h : m.Known) (hinfo : m.discoveryManager.nodeInfo n ≠ none)
    {c : Option Connection} (hd : m'.discoveryManager = m.discoveryManager)
    (hc : m'.connections = Function.update m.connections n c) : m'.Known where
  discovered := by
    intro k hk
    rw [hd]
    by_cases hkn : k = n
    · exact hkn ▸ hinfo
    · rw [hc, Function.update_of_ne hkn] at hk
      exact h.discovered hk
  listed := by
    rw [hd]
    exact h.listed

theorem Known.allocates (h : m.Known) (hinfo : m.discoveryManager.nodeInfo n ≠ none)
    (ha : Allocates env n m m') : m'.Known ∧ m'.discoveryManager = m.discoveryManager := by
  cases ha with
  | kept hc => exact ⟨h, rfl⟩
  | created hc hid hqp => exact ⟨h.update hinfo rfl rfl, rfl⟩

theorem Known.finishedOrAnswered (h : m.Known) {remote : ConnectionExchgData}
    (hinfo : m.discoveryManager.nodeInfo remote.header.nodeId ≠ none) (c : Connection)
    (ipv4 : UInt32) : (m.finishedOrAnswered remote c ipv4).Known := by
  unfold ConnectionManager.finishedOrAnswered
  split
  · split
    · exact h.update hinfo rfl rfl
    · exact h.update hinfo rfl rfl
  · split
    · exact h.congr rfl rfl
    · exact h

theorem Known.learn (h : m.Known) {remote : ConnectionExchgData}
    (hinfo : m.discoveryManager.nodeInfo remote.header.nodeId ≠ none) : (m.learn remote).Known :=
  h.update hinfo rfl rfl

theorem Known.dispatched (h : m.Known) {job : Job} (hd : Dispatched env m job m') : m'.Known := by
  cases hd with
  | createDropped | connectDropped | discoveredUnknown => exact h
  | discover => exact h.congr rfl rfl
  | create hshutdown hinfo halloc hc =>
    rcases halloc with ⟨halloc, -⟩ | rfl
    · exact (h.allocates (by simp [hinfo]) halloc).1.congr rfl rfl
    · exact h.congr rfl rfl
  | connect hshutdown hinfo halloc hcreated hc =>
    obtain ⟨hknown, hsame⟩ := h.allocates (by simp [hinfo]) halloc
    rw [← hsame] at hinfo
    have hne := Option.ne_none_iff_exists'.mpr ⟨_, hinfo⟩
    exact (hknown.learn hne).finishedOrAnswered hne _ _
  | @close n force shutdown c hc =>
    constructor
    · intro k hk
      by_cases hkn : k = n
      · subst hkn
        exact absurd (Function.update_self ..) hk
      · have hk' : m.connections k ≠ none := by
          simpa [closed, setLink, Function.update_of_ne hkn] using hk
        simpa [closed, DiscoveryManager.invalidate, Function.update_of_ne hkn]
          using h.discovered hk'
    · -- the entry that is put back is the one the node was discovered with
      have hinfo := h.discovered (n := n) (by simp [hc])
      simpa [closed, DiscoveryManager.invalidate, h.listed] using hinfo.symm
  | closeAgain hc => exact h.congr rfl rfl
  | @discovered ipv4 n entry rest htake =>
    constructor
    · intro k hk
      by_cases hkn : k = n
      · simp [hkn]
      · simpa [Function.update_of_ne hkn] using h.discovered hk
    · rcases DiscoveryManager.takeEntry_spec ipv4 h.listed with
        ⟨hnone, -⟩ | ⟨_, _, hfound, -, -, hrest⟩
      · rw [htake] at hnone
        cases hnone
      · rw [htake, Option.some.injEq, Option.some.injEq, Prod.mk.injEq] at hfound
        exact hfound.2 ▸ hrest

theorem Known.step (h : m.Known) {a : Action} (hs : step m a = some m') : m'.Known := by
  cases a with
  | requestCreation n | giveUpCreation n | addJob job | shutdown =>
    obtain rfl := Option.some.inj hs
    exact h.congr rfl rfl
  | runJob env =>
    obtain ⟨job, jobQueue, -, hd⟩ := step_runJob hs
    have hq : ({ m with jobQueue } : ConnectionManager).Known := h.congr rfl rfl
    exact hq.dispatched hd

/-- What the jobs rest on. -/
structure Sound (m : ConnectionManager) : Prop where
  holds : m.Holds
  known : m.Known

theorem Sound.step (h : m.Sound) {a : Action} (hs : step m a = some m') : m'.Sound :=
  ⟨h.holds.step hs, h.known.step hs⟩

theorem sound_new (p : Params) (nodes : List Entry) :
    (new { p with discoveryManager := { infoToGet := nodes.map some } }).Sound where
  holds := holds_new _
  known := ⟨fun h => absurd rfl h, by simp [new]⟩

/-! ## The jobs -/

variable {remote : ConnectionExchgData}

/-- `__AllocateConnection` returns. -/
def Allocatable (env : Environment) (m : ConnectionManager) : Prop :=
  m.availableConnectionIds ≠ [] ∧ ∃ qp, env.created = .ok qp

theorem allocateConnection_returns_iff (hnone : m.connections n = none) :
    (∃ b m', (allocateConnection env n).run m = .ok b m') ↔ m.Allocatable env := by
  constructor
  · rintro ⟨b, m', hrun⟩
    cases run_allocateConnection hrun with
    | kept hc => rw [hnone] at hc; cases hc
    | created _ hid hqp => exact ⟨List.ne_nil_of_mem (List.mem_of_getLast? hid), _, hqp⟩
  · rintro ⟨hids, qp, hqp⟩
    have hid := List.getLast?_eq_some_getLast hids
    exact ⟨true, _, run_allocateConnection_of_created hnone hid hqp⟩

/-- A create job returns when it is dropped, or there is a connection to send
the data of, or one can be allocated. -/
theorem createConnection_returns_iff (hshutdown : m.flagShutdown = false) :
    (∃ m', (dispatchJob env (.createConnection n)).run m = .ok () m') ↔
      m.discoveryManager.nodeInfo n = none ∨ m.connections n ≠ none ∨
        (m.connectionStates n).state = .inCreation ∧ m.Allocatable env := by
  constructor
  · rintro ⟨m', hrun⟩
    cases run_dispatchJob hrun with
    | createDropped hdrop => exact Or.inl (hdrop.resolve_left (by simp [hshutdown]))
    | create _ hinfo halloc hc =>
      rcases halloc with ⟨halloc, hstate⟩ | rfl
      · cases halloc with
        | kept hc => exact Or.inr (Or.inl (by simp [hc]))
        | created hnone hid hqp =>
          exact Or.inr (Or.inr ⟨hstate, List.ne_nil_of_mem (List.mem_of_getLast? hid), _, hqp⟩)
      · exact Or.inr (Or.inl (by simp [hc]))
  · intro h
    have hjob : (dispatchJob env (.createConnection n)).run m =
        (jobDispatchCreateConnection env n).run m := by
      simp [dispatchJob, hshutdown]
    cases hinfo : m.discoveryManager.nodeInfo n with
    | none =>
      exact ⟨m, by simp [hjob, jobDispatchCreateConnection, DiscoveryManager.getNodeInfo, hinfo]⟩
    | some entry =>
      obtain ⟨m₁, c, halloc, hc⟩ : ∃ m₁ c, (allocateRequested env n).run m = .ok () m₁ ∧
          m₁.connections n = some c := by
        simp only [allocateRequested, EStateM.run_bind, EStateM.run_get, Exec.run_ite]
        rcases h with hnone | hsome | ⟨hstate, hallocatable⟩
        · rw [hinfo] at hnone
          cases hnone
        · obtain ⟨c, hc⟩ := Option.ne_none_iff_exists'.mp hsome
          refine ⟨m, c, ?_, hc⟩
          rw [Exec.run_discard_eq_ok.mpr ⟨false, run_allocateConnection_of_some hc⟩]
          simp
        · obtain ⟨b, m₁, hb⟩ : ∃ b m₁, (allocateConnection env n).run m = .ok b m₁ := by
            cases hc : m.connections n with
            | some c => exact ⟨false, m, run_allocateConnection_of_some hc⟩
            | none => exact (allocateConnection_returns_iff hc).mpr hallocatable
          obtain ⟨c, hc⟩ := (run_allocateConnection hb).exists_connection
          exact ⟨m₁, c, by rw [if_pos hstate, Exec.run_discard_eq_ok.mpr ⟨b, hb⟩], hc⟩
      refine ⟨m₁.answered n c entry.address, ?_⟩
      simp only [hjob, jobDispatchCreateConnection, DiscoveryManager.getNodeInfo, EStateM.run_bind,
        EStateM.run_get, hinfo, halloc, run_sendFlags hc]

/-- The data of a remote that is not connected to are enough, and the verbs
accept them. -/
def Connectable (env : Environment) (remote : ConnectionExchgData) : Prop :=
  sizeOfRemoteConnectionData ≤ remote.size ∧ env.connected = .ok ()

theorem connectToRemote_returns_iff {c : Connection}
    (hc : m.connections remote.header.nodeId = some c) :
    (∃ m', (connectToRemote env remote).run m = .ok () m') ↔
      ((m.connectionStates remote.header.nodeId).isConnectedToRemote = false →
        Connectable env remote) := by
  simp only [connectToRemote, EStateM.run_bind, EStateM.run_get, Exec.run_ite, hc]
  split
  · next hset => simp [hset]
  · next hset =>
    simp only [hset, forall_const, Connectable]
    split
    · next hsize => simp [Nat.not_le.mpr hsize]
    · next hsize =>
      simp only [run_setConnection, run_call]
      cases env.connected with
      | error e => simp
      | ok u => simp [Nat.le_of_not_lt hsize]

theorem connectAllocated_returns_iff {c : Connection} (ipv4 : UInt32)
    (hc : m.connections remote.header.nodeId = some c)
    (hcreated : State.created.val ≤ (m.connectionStates remote.header.nodeId).state.val) :
    (∃ m', (connectAllocated env remote ipv4).run m = .ok () m') ↔
      ((m.connectionStates remote.header.nodeId).isConnectedToRemote = false →
        Connectable env remote) := by
  have hcheck : (checkCreated remote.header.nodeId).run m = .ok () m := by
    simp [checkCreated, Nat.not_lt.mpr hcreated]
  have hflags := run_setConnectionState remote.header.nodeId
    (fun s => { s with remoteExchgFlags := remote.header.exchgFlags }) m
  generalize hm₁ : m.setLink remote.header.nodeId _ = m₁ at hflags
  have hc₁ : m₁.connections remote.header.nodeId = some c := by
    rw [← hm₁, setLink_connections_self]
    exact hc
  have hset₁ : (m₁.connectionStates remote.header.nodeId).isConnectedToRemote =
      (m.connectionStates remote.header.nodeId).isConnectedToRemote := by
    rw [← hm₁, setLink_connectionStates_self]
    rfl
  rw [← hset₁, ← connectToRemote_returns_iff hc₁]
  constructor
  · rintro ⟨m', hrun⟩
    obtain ⟨_, _, h₁, hrun⟩ := Exec.run_bind_eq_ok.mp hrun
    rw [hcheck, EStateM.Result.ok.injEq] at h₁
    obtain ⟨_, _, h₂, hrun⟩ := Exec.run_bind_eq_ok.mp hrun
    rw [← h₁.2, hflags, EStateM.Result.ok.injEq] at h₂
    obtain ⟨_, m₂, h₃, -⟩ := Exec.run_bind_eq_ok.mp hrun
    exact ⟨m₂, h₂.2 ▸ h₃⟩
  · rintro ⟨m₂, h₂⟩
    obtain ⟨c₂, hc₂⟩ : ∃ c₂, m₂.connections remote.header.nodeId = some c₂ := by
      rcases run_connectToRemote h₂ with ⟨-, rfl⟩ | ⟨-, c', -, rfl⟩
      · exact ⟨c, hc₁⟩
      · exact ⟨c'.connect remote, Function.update_self ..⟩
    obtain ⟨m₃, h₃, hc₃⟩ : ∃ m₃, (applyRemoteConnected remote).run m₂ = .ok () m₃ ∧
        m₃.connections remote.header.nodeId = some c₂ :=
      ⟨_, run_applyRemoteConnected remote m₂, (setLink_connections_self ..).trans hc₂⟩
    refine ⟨m₃.finishedOrAnswered remote c₂ ipv4, ?_⟩
    unfold connectAllocated
    refine Exec.run_bind_eq_ok.mpr ⟨(), m, hcheck, ?_⟩
    refine Exec.run_bind_eq_ok.mpr ⟨(), m₁, hflags, ?_⟩
    refine Exec.run_bind_eq_ok.mpr ⟨(), m₂, h₂, ?_⟩
    refine Exec.run_bind_eq_ok.mpr ⟨(), m₃, h₃, ?_⟩
    exact run_finishOrAnswer hc₃ ipv4

/-- A connect job returns when it is dropped, or the connection it needs can be
allocated and connected. -/
theorem connectConnection_returns_iff (h : m.Sound) (hshutdown : m.flagShutdown = false) :
    (∃ m', (dispatchJob env (.connectConnection remote)).run m = .ok () m') ↔
      m.discoveryManager.nodeInfo remote.header.nodeId = none ∨
        (m.connections remote.header.nodeId = none → m.Allocatable env) ∧
          ((m.connectionStates remote.header.nodeId).isConnectedToRemote = false →
            Connectable env remote) := by
  rw [run_dispatchJob_connect env remote hshutdown]
  cases hinfo : m.discoveryManager.nodeInfo remote.header.nodeId with
  | none =>
    refine iff_of_true ⟨m, ?_⟩ (Or.inl rfl)
    simp [jobDispatchConnectConnection, DiscoveryManager.getNodeInfo, hinfo]
  | some entry =>
    simp only [reduceCtorEq, false_or]
    rw [run_jobDispatchConnectConnection_of_discovered hinfo]
    have hallocated : ∀ {b m₁}, (allocateConnection env remote.header.nodeId).run m = .ok b m₁ →
        ((∃ m', (connectAllocated env remote entry.address).run m₁ = .ok () m') ↔
          ((m.connectionStates remote.header.nodeId).isConnectedToRemote = false →
            Connectable env remote)) := by
      intro b m₁ hb
      have halloc := run_allocateConnection hb
      obtain ⟨c, hc⟩ := halloc.exists_connection
      have hcreated := ((h.holds.allocates halloc) remote.header.nodeId).allocated.mp (by simp [hc])
      rw [connectAllocated_returns_iff entry.address hc hcreated]
      cases halloc with
      | kept => rfl
      | created => simp [allocated, Link.allocate, ConnectionState.isConnectedToRemote,
          ConnectionState.isFlagSet]
    constructor
    · rintro ⟨m', hrun⟩
      obtain ⟨_, m₁, hb, hrun⟩ := Exec.run_bind_eq_ok.mp hrun
      obtain ⟨b, hb⟩ := Exec.run_discard_eq_ok.mp hb
      exact ⟨fun hnone => (allocateConnection_returns_iff hnone).mp ⟨b, m₁, hb⟩,
        (hallocated hb).mp ⟨m', hrun⟩⟩
    · rintro ⟨hallocatable, hconnectable⟩
      obtain ⟨b, m₁, hb⟩ : ∃ b m₁,
          (allocateConnection env remote.header.nodeId).run m = .ok b m₁ := by
        cases hc : m.connections remote.header.nodeId with
        | some c => exact ⟨false, m, run_allocateConnection_of_some hc⟩
        | none => exact (allocateConnection_returns_iff hc).mpr (hallocatable hc)
      obtain ⟨m', hrun⟩ := (hallocated hb).mpr hconnectable
      exact ⟨m', Exec.run_bind_eq_ok.mpr
        ⟨(), m₁, Exec.run_discard_eq_ok.mpr ⟨b, hb⟩, hrun⟩⟩

/-- A discovered job returns whatever it finds. -/
theorem discovered_returns (h : m.Known) (ipv4 : UInt32) :
    ∃ m', (dispatchJob env (.discovered ipv4 n)).run m = .ok () m' := by
  simp only [dispatchJob, jobDispatchDiscovered, EStateM.run_bind, EStateM.run_get]
  rcases DiscoveryManager.takeEntry_spec ipv4 h.listed with
    ⟨hnone, -⟩ | ⟨entry, rest, hfound, -⟩
  · simp [hnone]
  · simp only [hfound, EStateM.run_bind, EStateM.run_set, Exec.run_ite, run_call]
    split
    · exact ⟨_, rfl⟩
    · exact ⟨_, rfl⟩

end ConnectionManager

namespace ExchangeManager

open ConnectionManager

/-! ## Steps that survive -/

/-- The jobs that datagrams cause. -/
def FromWire : Job → Prop
  | .createConnection _ | .connectConnection _ | .discovered .. => True
  | .closeConnection .. | .discover => False

/-- The job neither throws nor indexes a table out of range. -/
def Returns (env : Environment) (m : ConnectionManager) (job : Job) : Prop :=
  (∀ nodeId ∈ tableIndex m job, InRange nodeId) ∧ ∃ m', (dispatchJob env job).run m = .ok () m'

/-- Neither the receive loop nor a job that datagrams cause ends the process. -/
def Survives (w : ExchangeManager) : Action → Prop
  | .receive sourceIPV4 datagram => ∃ w', (runLoop sourceIPV4 datagram).run w = .ok () w'
  | .manager (.runJob env) => ∀ job jobQueue, w.manager.jobQueue = job :: jobQueue →
      FromWire job → Returns env { w.manager with jobQueue } job
  | .manager _ => True

/-- A packet of exchange data that declares less than a connection header. -/
def ShortExchgData (datagram : List UInt8) : Prop :=
  sizeOfPaketHeader ≤ datagram.length ∧
    let paketHeader := (Buffer.write (fun _ => 0) datagram).paketHeader
    Valid paketHeader ∧ paketHeader.paketType = conDataExchgPaketType ∧
      paketHeader.length.toNat < sizeOfRemoteConnectionHeader

/-- The job can do what it gets to do. -/
def HarmlessJob (env : Environment) (m : ConnectionManager) : Job → Prop
  | .createConnection n => m.flagShutdown = true ∨ InRange n ∧
      (m.discoveryManager.nodeInfo n = none ∨ m.connections n ≠ none ∨
        (m.connectionStates n).state = .inCreation ∧ m.Allocatable env)
  | .connectConnection remote => m.flagShutdown = true ∨ InRange remote.header.nodeId ∧
      (m.discoveryManager.nodeInfo remote.header.nodeId = none ∨
        (m.connections remote.header.nodeId = none → m.Allocatable env) ∧
          ((m.connectionStates remote.header.nodeId).isConnectedToRemote = false →
            Connectable env remote))
  | .discovered ipv4 n =>
    (∃ entry, some entry ∈ m.discoveryManager.infoToGet ∧ entry.address = ipv4) → InRange n
  | .closeConnection .. | .discover => True

def Harmless (w : ExchangeManager) : Action → Prop
  | .receive _ datagram => ¬ ShortExchgData datagram
  | .manager (.runJob env) => ∀ job ∈ w.manager.jobQueue.head?, HarmlessJob env w.manager job
  | .manager _ => True

variable {w w' : ExchangeManager}

/-! ### Datagrams -/

theorem paketHeader_congr {b b' : Buffer} (h : ∀ i < sizeOfPaketHeader, b i = b' i) :
    b.paketHeader = b'.paketHeader := by
  have h' : ∀ i, i < 11 → b i = b' i := h
  simp only [Buffer.paketHeader, Buffer.uint32At, Buffer.uint16At, PaketHeader.mk.injEq]
  refine ⟨?_, h' 4 (by omega), ?_, ?_⟩
  · rw [h' 0 (by omega), h' (0 + 1) (by omega), h' (0 + 2) (by omega), h' (0 + 3) (by omega)]
  · rw [h' 5 (by omega), h' (5 + 1) (by omega)]
  · rw [h' 7 (by omega), h' (7 + 1) (by omega), h' (7 + 2) (by omega), h' (7 + 3) (by omega)]

/-- The header of a datagram that holds one does not depend on what the buffer
held before. -/
theorem paketHeader_write {datagram : List UInt8} (h : sizeOfPaketHeader ≤ datagram.length)
    (b b' : Buffer) :
    (b.write (datagram.take maxPaketSize)).paketHeader = (b'.write datagram).paketHeader := by
  refine paketHeader_congr fun i hi => ?_
  have hlength : i < datagram.length := Nat.lt_of_lt_of_le hi h
  have hmax : i < maxPaketSize := Nat.lt_of_lt_of_le hi (by decide)
  simp [Buffer.write, hmax, hlength]

theorem run_dispatchConDataExchg {paketHeader : PaketHeader}
    (htype : paketHeader.paketType = conDataExchgPaketType) (w : ExchangeManager) :
    (∃ w', (dispatchConDataExchg paketHeader).run w = .ok () w') ↔
      sizeOfRemoteConnectionHeader ≤ paketHeader.length.toNat := by
  unfold dispatchConDataExchg
  rw [if_pos htype]
  split
  · next hshort => simp [Nat.not_le.mpr hshort]
  · next hlong => exact iff_of_true ⟨_, rfl⟩ (Nat.le_of_not_lt hlong)

theorem run_dispatchDiscovery (sourceIPV4 : UInt32) (paketHeader : PaketHeader)
    (w : ExchangeManager) :
    ∃ w', (dispatchDiscovery sourceIPV4 paketHeader).run w = .ok () w' := by
  unfold dispatchDiscovery
  split
  · exact ⟨_, rfl⟩
  · split
    · exact ⟨_, rfl⟩
    · exact ⟨_, rfl⟩

/-- The receive loop throws on a short packet of exchange data only. -/
theorem receive_survives_iff (w : ExchangeManager) (sourceIPV4 : UInt32) (datagram : List UInt8) :
    Survives w (.receive sourceIPV4 datagram) ↔ Harmless w (.receive sourceIPV4 datagram) := by
  have hlength : (datagram.take maxPaketSize).length < sizeOfPaketHeader ↔
      datagram.length < sizeOfPaketHeader := by
    simp [maxPaketSize, sizeOfPaketHeader]
  simp only [Survives, Harmless, ShortExchgData, runLoop, EStateM.run_bind, EStateM.run_modify,
    Exec.run_ite, EStateM.run_get, hlength]
  split
  · next hshort => simp [Nat.not_le.mpr hshort]
  · next hlong =>
    have hle := Nat.le_of_not_lt hlong
    rw [paketHeader_write hle w.recvBuffer fun _ => 0]
    simp only [hle, true_and]
    split
    · next hvalid =>
      simp only [hvalid, true_and]
      unfold dispatchExchangeData
      split
      · next htype =>
        rw [run_dispatchConDataExchg htype]
        simp [htype]
      · next htype =>
        exact iff_of_true (run_dispatchDiscovery ..) (by simp [htype])
    · next hvalid => simp [hvalid]

/-! ### Jobs -/

theorem returns_iff_harmlessJob (env : Environment) {m : ConnectionManager} (h : m.Sound)
    {job : Job} (hjob : FromWire job) : Returns env m job ↔ HarmlessJob env m job := by
  cases job with
  | createConnection n =>
    cases hshutdown : m.flagShutdown with
    | true => simp [Returns, HarmlessJob, tableIndex, hshutdown, dispatchJob]
    | false =>
      simp only [Returns, HarmlessJob, tableIndex, hshutdown,
        createConnection_returns_iff hshutdown]
      simp
  | connectConnection remote =>
    cases hshutdown : m.flagShutdown with
    | true => simp [Returns, HarmlessJob, tableIndex, hshutdown, dispatchJob]
    | false =>
      simp only [Returns, HarmlessJob, tableIndex, hshutdown,
        connectConnection_returns_iff h hshutdown]
      simp
  | discovered ipv4 n =>
    simp only [Returns, HarmlessJob, tableIndex, discovered_returns h.known ipv4, and_true]
    rcases DiscoveryManager.takeEntry_spec ipv4 h.known.listed with
      ⟨hnone, hne⟩ | ⟨entry, rest, hfound, hmem, haddress, -⟩
    · simp only [hnone]
      refine iff_of_true (by simp) ?_
      rintro ⟨entry, hmem, haddress⟩
      exact absurd haddress (hne entry hmem)
    · simp only [hfound]
      have hexists : ∃ entry, some entry ∈ m.discoveryManager.infoToGet ∧ entry.address = ipv4 :=
        ⟨entry, hmem, haddress⟩
      simp [hexists]
  | closeConnection => exact hjob.elim
  | discover => exact hjob.elim

theorem survives_iff_harmless (h : w.manager.Sound) (a : Action) :
    Survives w a ↔ Harmless w a := by
  cases a with
  | receive sourceIPV4 datagram => exact receive_survives_iff w sourceIPV4 datagram
  | manager a =>
    cases a with
    | requestCreation | giveUpCreation | addJob | shutdown => rfl
    | runJob env =>
      -- the queue is not part of what a job needs
      have hjob : ∀ {job jobQueue}, FromWire job →
          (Returns env { w.manager with jobQueue } job ↔ HarmlessJob env w.manager job) := by
        intro job jobQueue hwire
        have hq : ({ w.manager with jobQueue } : ConnectionManager).Sound :=
          ⟨h.holds, h.known.congr rfl rfl⟩
        rw [returns_iff_harmlessJob env hq hwire]
        cases job <;> rfl
      constructor
      · intro hsurvives job hhead
        obtain ⟨jobQueue, hq⟩ := List.head?_eq_some_iff.mp hhead
        have hharmless : FromWire job → HarmlessJob env w.manager job := fun hwire =>
          (hjob hwire).mp (hsurvives job jobQueue hq hwire)
        cases job with
        | createConnection | connectConnection | discovered => exact hharmless trivial
        | closeConnection | discover => trivial
      · intro hharmless job jobQueue hq hwire
        exact (hjob hwire).mpr (hharmless job (by simp [hq]))

/-! ## Runs -/

/-- The receive loop touches the job queue only. -/
theorem receive_manager {sourceIPV4 : UInt32} {datagram : List UInt8}
    (hrun : (runLoop sourceIPV4 datagram).run w = .ok () w') :
    ∃ jobs, w'.manager = { w.manager with jobQueue := w.manager.jobQueue ++ jobs } := by
  have hnone : w.manager = { w.manager with jobQueue := w.manager.jobQueue ++ [] } := by simp
  simp only [runLoop, EStateM.run_bind, EStateM.run_modify, Exec.run_ite, EStateM.run_get,
    dispatchExchangeData, dispatchConDataExchg, dispatchDiscovery, Exec.run_throw, addJob,
    EStateM.run_pure] at hrun
  split at hrun
  · cases hrun
    exact ⟨[], hnone⟩
  split at hrun
  · split at hrun
    · split at hrun
      · cases hrun
      · cases hrun
        exact ⟨_, rfl⟩
    · split at hrun
      · cases hrun
        exact ⟨[], hnone⟩
      · split at hrun
        · cases hrun
          exact ⟨_, rfl⟩
        · cases hrun
          exact ⟨[], hnone⟩
  · cases hrun
    exact ⟨[], hnone⟩

theorem sound_step {a : Action} (h : w.manager.Sound) (hs : step w a = some w') :
    w'.manager.Sound := by
  cases a with
  | receive sourceIPV4 datagram =>
    simp only [step] at hs
    split at hs
    · next u w'' hrun =>
      obtain rfl := Option.some.inj hs
      obtain ⟨jobs, hjobs⟩ := receive_manager hrun
      exact ⟨hjobs ▸ h.holds, h.known.congr (by rw [hjobs]) (by rw [hjobs])⟩
    · cases hs
  | manager a =>
    simp only [step] at hs
    split at hs
    · obtain ⟨m, hm, rfl⟩ := Option.map_eq_some_iff.mp hs
      exact h.step hm
    · cases hs

/-- Whatever is received, and whatever the threads do besides: no step faults
exactly when every step is harmless. -/
theorem along_survives_iff (p : Params) (nodes : List Entry) (recvBuffer : Buffer)
    (as : List Action) :
    Lts.Along step Survives (new p nodes recvBuffer) as ↔
      Lts.Along step Harmless (new p nodes recvBuffer) as :=
  Lts.along_congr (I := fun w => w.manager.Sound) (fun _ a h => survives_iff_harmless h a)
    (fun _ _ _ h hs => sound_step h hs) (sound_new p nodes)

/-! ### Three packets that do harm -/

def exampleOwn : Params where
  ownNodeId := 1
  connectionCtxIdent := 0x11
  lid := 1
  maxNumConnections := 4
  listener := false
  discoveryListener := false
  discoveryManager := {}

def exampleNode : Entry where
  hostname := "node2"
  address := 0x0A000002

/-- A packet that says it is from `sourceNodeId`, with less than 256 bytes of data. -/
def examplePaket (paketType : UInt8) (sourceNodeId : NodeId) (data : List UInt8) : List UInt8 :=
  [0x4E, 0xCA, 0xEF, 0xBE, paketType, sourceNodeId.toUInt8, (sourceNodeId >>> 8).toUInt8,
    UInt8.ofNat data.length, 0, 0, 0] ++ data

/-- The packet is received from the configured node, and the job it causes is run. -/
def exampleTraffic (paket : List UInt8) : List Action :=
  [.receive 0x0A000002 paket, .manager (.runJob {})]

/-- A run does not survive its last action. -/
theorem not_along_of_last {as : List Action} {a : Action} {w₀ : ExchangeManager}
    (h : Lts.exec step w₀ as = some w) (ha : ¬ Survives w a) :
    ¬ Lts.Along step Survives w₀ (as ++ [a]) := fun halong =>
  ha (Lts.along_cons.mp ((Lts.along_append.mp halong).2 w h)).1

/-- The node id of a discovery response is used as it is. -/
theorem discovered_invalid_not_survives :
    ¬ Lts.Along step Survives (new exampleOwn [exampleNode] fun _ => 0)
      (exampleTraffic (examplePaket discoverRespExchgPaketType nodeIdInvalid [])) := by
  have hrun : (Lts.exec step (new exampleOwn [exampleNode] fun _ => 0)
      [.receive 0x0A000002 (examplePaket discoverRespExchgPaketType nodeIdInvalid [])]).map
      (fun w => (w.manager.jobQueue, w.manager.discoveryManager.infoToGet)) =
      some ([.discovered 0x0A000002 nodeIdInvalid], [some exampleNode]) := by
    decide +kernel
  obtain ⟨w, hw, h⟩ := Option.map_eq_some_iff.mp hrun
  rw [Prod.mk.injEq] at h
  refine not_along_of_last hw fun hsurvives => ?_
  obtain ⟨hrange, -⟩ := hsurvives _ _ h.1 trivial
  have hindex : nodeIdInvalid ∈
      tableIndex w.manager (.discovered 0x0A000002 nodeIdInvalid) := by
    simp [tableIndex, h.2, DiscoveryManager.takeEntry, exampleNode]
  exact absurd (hrange _ hindex) (by decide)

/-- Exchange data that ends with the connection header. -/
def exampleHeaderOnly : List UInt8 :=
  examplePaket conDataExchgPaketType 2 [2, 0, 0, 0, 2, 0, 0x22, 0, 0, 0]

/-- What the connection manager makes of it. -/
theorem receive_headerOnly (w : ExchangeManager) :
    ∃ w' remote, step w (.receive 0x0A000002 exampleHeaderOnly) = some w' ∧
      w'.manager = { w.manager with
        jobQueue := w.manager.jobQueue ++ [.connectConnection remote] } ∧
      remote.header.nodeId = 2 ∧ remote.size = 0 := by
  have hlength : sizeOfPaketHeader ≤ exampleHeaderOnly.length := by decide
  have htake : exampleHeaderOnly.take maxPaketSize = exampleHeaderOnly :=
    List.take_of_length_le (by decide)
  have hheader := paketHeader_write hlength w.recvBuffer fun _ => 0
  have hparsed : (Buffer.write (fun _ => 0) exampleHeaderOnly).paketHeader =
      ⟨paketMagic, conDataExchgPaketType, 2, 10⟩ := by decide +kernel
  rw [htake, hparsed] at hheader
  have hvalid : Valid ⟨paketMagic, conDataExchgPaketType, 2, 10⟩ := by decide
  have hlong : ¬ (10 : UInt32).toNat < sizeOfRemoteConnectionHeader := by decide
  simp only [step, runLoop, htake, Nat.not_lt.mpr hlength, if_false, EStateM.run_bind,
    EStateM.run_modify, EStateM.run_get, hheader, hvalid, if_true, dispatchExchangeData,
    dispatchConDataExchg, hlong, addJob]
  have hlow : w.recvBuffer.write exampleHeaderOnly sizeOfPaketHeader = 2 := rfl
  have hhigh : w.recvBuffer.write exampleHeaderOnly (sizeOfPaketHeader + 1) = 0 := rfl
  refine ⟨_, _, rfl, rfl, ?_, rfl⟩
  simp only [Buffer.remoteConnectionHeader, Buffer.uint16At, hlow, hhigh]
  decide

theorem connect_headerOnly_not_survives :
    ¬ Lts.Along step Survives (new exampleOwn [exampleNode] fun _ => 0)
      (exampleTraffic (examplePaket discoverRespExchgPaketType 2 []) ++
        exampleTraffic exampleHeaderOnly) := by
  have hdiscovered : (Lts.exec step (new exampleOwn [exampleNode] fun _ => 0)
      (exampleTraffic (examplePaket discoverRespExchgPaketType 2 []))).map
      (fun w => (w.manager.jobQueue, w.manager.flagShutdown,
        (w.manager.discoveryManager.nodeInfo 2).isSome,
        (w.manager.connectionStates 2).isConnectedToRemote)) =
      some ([], false, true, false) := by
    decide +kernel
  obtain ⟨w₁, hw₁, h⟩ := Option.map_eq_some_iff.mp hdiscovered
  simp only [Prod.mk.injEq] at h
  obtain ⟨hq, hshutdown, hinfo, hset⟩ := h
  obtain ⟨w, remote, hw, hmanager, hnode, hsize⟩ := receive_headerOnly w₁
  have hrun := Lts.exec_append_eq_some.mpr
    ⟨w₁, hw₁, Lts.exec_cons_eq_some.mpr ⟨w, hw, Lts.exec_nil w⟩⟩
  have hsound : w.manager.Sound :=
    Lts.exec_invariant (I := fun w => w.manager.Sound) (fun _ _ _ h hs => sound_step h hs)
      (sound_new ..) hrun
  refine not_along_of_last hrun fun hsurvives => ?_
  have hharmless := (survives_iff_harmless hsound _).mp hsurvives
    (.connectConnection remote) (by rw [hmanager, hq]; rfl)
  simp only [HarmlessJob, hmanager, hnode] at hharmless
  -- the node is discovered and not connected to, and there is nothing to connect with
  rcases hharmless with hdown | ⟨-, hnone | ⟨-, hconnectable⟩⟩
  · rw [hshutdown] at hdown
    cases hdown
  · rw [hnone] at hinfo
    cases hinfo
  · have hdata := (hconnectable hset).1
    rw [hsize] at hdata
    exact absurd hdata (by decide)

/-- Exchange data of length zero ends the receive loop, a discovery response
with the invalid node id writes past `m_nodeInfo`, and exchange data without
connection data ends the job thread. -/
theorem hostile_traffic_faults :
    ¬ Lts.Along step Survives (new exampleOwn [exampleNode] fun _ => 0)
      (exampleTraffic (examplePaket conDataExchgPaketType 2 [])) ∧
    ¬ Lts.Along step Survives (new exampleOwn [exampleNode] fun _ => 0)
      (exampleTraffic (examplePaket discoverRespExchgPaketType nodeIdInvalid [])) ∧
    ¬ Lts.Along step Survives (new exampleOwn [exampleNode] fun _ => 0)
      (exampleTraffic (examplePaket discoverRespExchgPaketType 2 []) ++
        exampleTraffic exampleHeaderOnly) := by
  refine ⟨fun halong => ?_, discovered_invalid_not_survives, connect_headerOnly_not_survives⟩
  have hharmless := (receive_survives_iff ..).mp (Lts.along_cons.mp halong).1
  revert hharmless
  unfold Harmless ShortExchgData
  decide +kernel

end ExchangeManager

end Ibdxnet.Con
