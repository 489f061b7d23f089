import Ibdxnet.Connection.ConnectionSteps

/-!
# Who has the connection ids

The constructor fills `m_availableConnectionIds`; `__AllocateConnection` takes
the last id out of it before the connection is built, and a close job puts the
id of the connection it deletes back.  In every state a manager reaches the ids
are split between the vector and the connections (`Partition`).

A job ends the process when `back()` is called on the empty vector, and when
`_CreateConnection` throws; the id is lost then.

    KeepsIds of a job's run  ↔  a job that allocates finds an id, and
                                `_CreateConnection` returns
-/

namespace Ibdxnet.Con

namespace ConnectionManager

/-- The id of the connection to `n`. -/
def connectionIdAt (m : ConnectionManager) (n : NodeId) : Option ConnectionId :=
  (m.connections n).map Connection.connectionId

/-- The ids below `maxNumConnections` are in the vector or held by a connection,
each of them once. -/
structure Partition (maxNumConnections : UInt16) (m : ConnectionManager) : Prop where
  nodup : m.availableConnectionIds.Nodup
  distinct : ∀ {n k i}, m.connectionIdAt n = some i → m.connectionIdAt k = some i → n = k
  disjoint : ∀ {n i}, m.connectionIdAt n = some i → i ∉ m.availableConnectionIds
  exact : ∀ i : ConnectionId, i < maxNumConnections ↔
    i ∈ m.availableConnectionIds ∨ ∃ n, m.connectionIdAt n = some i

/-- The ids are where they were. -/
structure SameIds (m m' : ConnectionManager) : Prop where
  available : m'.availableConnectionIds = m.availableConnectionIds
  held : m'.connectionIdAt = m.connectionIdAt

/-- The job is about to allocate a connection. -/
def Allocating (m : ConnectionManager) : Job → Prop
  | .createConnection n =>
    m.flagShutdown = false ∧ m.discoveryManager.nodeInfo n ≠ none ∧
      (m.connectionStates n).state = .inCreation ∧ m.connections n = none
  | .connectConnection remote =>
    m.flagShutdown = false ∧ m.discoveryManager.nodeInfo remote.header.nodeId ≠ none ∧
      m.connections remote.header.nodeId = none
  | .closeConnection .. | .discover | .discovered .. => False

/-- The ids are split as before when a job has returned or thrown, and none was
taken from the empty vector. -/
def KeepsIds (maxNumConnections : UInt16) : EStateM.Result Failure ConnectionManager Unit → Prop
  | .ok _ m => m.Partition maxNumConnections
  | .error e m => m.Partition maxNumConnections ∧ e ≠ .emptyVector

/-- A run that leaves the ids where they are, and takes none. -/
structure LeavesIds {α : Type} (m : ConnectionManager)
    (r : EStateM.Result Failure ConnectionManager α) : Prop where
  same : m.SameIds (Exec.final r)
  nonempty : ∀ {e m'}, r = .error e m' → e ≠ .emptyVector

variable {m m' m'' : ConnectionManager} {env : Environment} {n : NodeId} {job : Job}
  {maxNumConnections : UInt16}

/-! ## The ids in the vector and the ids held -/

theorem connectionIdAt_update {c : Option Connection}
    (h : m'.connections = Function.update m.connections n c) :
    m'.connectionIdAt = Function.update m.connectionIdAt n (c.map Connection.connectionId) := by
  funext k
  simp only [connectionIdAt, h, Function.update_apply]
  split <;> rfl

theorem SameIds.refl (m : ConnectionManager) : m.SameIds m := ⟨rfl, rfl⟩

theorem SameIds.trans (h : m.SameIds m') (h' : m'.SameIds m'') : m.SameIds m'' :=
  ⟨h'.available.trans h.available, h'.held.trans h.held⟩

theorem sameIds_of_eq (havailable : m'.availableConnectionIds = m.availableConnectionIds)
    (h : m'.connections = m.connections) : m.SameIds m' :=
  ⟨havailable, by funext k; rw [connectionIdAt, h]; rfl⟩

/-- A connection replaced by one with its id. -/
theorem sameIds_update {c : Option Connection}
    (havailable : m'.availableConnectionIds = m.availableConnectionIds)
    (h : m'.connections = Function.update m.connections n c)
    (hid : c.map Connection.connectionId = m.connectionIdAt n) : m.SameIds m' :=
  ⟨havailable, by rw [connectionIdAt_update h, hid, Function.update_eq_self]⟩

theorem Partition.of_sameIds (h : m.Partition maxNumConnections) (hsame : m.SameIds m') :
    m'.Partition maxNumConnections where
  nodup := hsame.available ▸ h.nodup
  distinct hn hk := h.distinct (hsame.held ▸ hn) (hsame.held ▸ hk)
  disjoint hn := hsame.available ▸ h.disjoint (hsame.held ▸ hn)
  exact i := by
    rw [hsame.available, hsame.held]
    exact h.exact i

theorem toNat_ofNat_id {p : Params} {i : Nat} (hi : i < p.maxNumConnections.toNat) :
    (UInt16.ofNat i).toNat = i :=
  UInt16.toNat_ofNat_of_lt' (hi.trans p.maxNumConnections.toNat_lt)

theorem partition_new (p : Params) : (new p).Partition p.maxNumConnections where
  nodup := by
    refine List.Nodup.map_on ?_ (List.nodup_reverse.mpr List.nodup_range)
    intro i hi j hj hij
    rw [List.mem_reverse, List.mem_range] at hi hj
    have htoNat := congrArg UInt16.toNat hij
    rw [toNat_ofNat_id hi, toNat_ofNat_id hj] at htoNat
    exact htoNat
  distinct hn := by cases hn
  disjoint hn := by cases hn
  exact i := by
    simp only [new, List.mem_map, List.mem_reverse, List.mem_range, connectionIdAt, Option.map_none,
      reduceCtorEq, exists_false, or_false, UInt16.lt_iff_toNat_lt]
    constructor
    · exact fun hi => ⟨i.toNat, hi, UInt16.ofNat_toNat⟩
    · rintro ⟨j, hj, rfl⟩
      rw [toNat_ofNat_id hj]
      exact hj

/-- A connection is built with the last id of the vector. -/
theorem Partition.take (h : m.Partition maxNumConnections) {c : Connection}
    (hnone : m.connections n = none)
    (hi : m.availableConnectionIds.getLast? = some c.connectionId)
    (havailable : m'.availableConnectionIds = m.availableConnectionIds.dropLast)
    (hconnections : m'.connections = Function.update m.connections n (some c)) :
    m'.Partition maxNumConnections := by
  have hn : m.connectionIdAt n = none := by rw [connectionIdAt, hnone, Option.map_none]
  have hheld := connectionIdAt_update hconnections
  rw [Option.map_some] at hheld
  generalize c.connectionId = i at hi hheld
  have hids : m.availableConnectionIds.dropLast ++ [i] = m.availableConnectionIds :=
    List.dropLast_append_getLast? i hi
  have hnodup := h.nodup
  rw [← hids, List.nodup_append] at hnodup
  have hmem : ∀ {j}, j ∈ m.availableConnectionIds ↔
      j ∈ m.availableConnectionIds.dropLast ∨ j = i := by
    intro j
    conv_lhs => rw [← hids]
    simp
  have hheldAt : ∀ {k j}, m'.connectionIdAt k = some j ↔
      k = n ∧ j = i ∨ k ≠ n ∧ m.connectionIdAt k = some j := by
    intro k j
    rw [hheld, Function.update_apply]
    split
    · next hk => simp [hk, eq_comm]
    · next hk => simp [hk]
  refine ⟨havailable ▸ hnodup.1, ?_, ?_, ?_⟩
  · intro k k' j hk hk'
    rw [hheldAt] at hk hk'
    rcases hk with ⟨rfl, rfl⟩ | ⟨hkn, hk⟩ <;> rcases hk' with ⟨rfl, hj⟩ | ⟨hkn', hk'⟩
    · rfl
    · exact absurd (hmem.mpr (Or.inr rfl)) (h.disjoint hk')
    · exact absurd (hmem.mpr (Or.inr hj)) (h.disjoint hk)
    · exact h.distinct hk hk'
  · intro k j hk hj
    rw [havailable] at hj
    rcases hheldAt.mp hk with ⟨-, rfl⟩ | ⟨-, hk⟩
    · exact hnodup.2.2 j hj j (List.mem_singleton.mpr rfl) rfl
    · exact h.disjoint hk (hmem.mpr (Or.inl hj))
  · intro j
    rw [h.exact, hmem, havailable]
    constructor
    · rintro ((hj | rfl) | ⟨k, hk⟩)
      · exact Or.inl hj
      · exact Or.inr ⟨n, hheldAt.mpr (Or.inl ⟨rfl, rfl⟩)⟩
      · refine Or.inr ⟨k, hheldAt.mpr (Or.inr ⟨?_, hk⟩)⟩
        rintro rfl
        rw [hn] at hk
        cases hk
    · rintro (hj | ⟨k, hk⟩)
      · exact Or.inl (Or.inl hj)
      · rcases hheldAt.mp hk with ⟨-, rfl⟩ | ⟨-, hk⟩
        · exact Or.inl (Or.inr rfl)
        · exact Or.inr ⟨k, hk⟩

/-- The id of a deleted connection is put back. -/
theorem Partition.giveBack (h : m.Partition maxNumConnections) {c : Connection}
    (hc : m.connections n = some c)
    (havailable : m'.availableConnectionIds = m.availableConnectionIds ++ [c.connectionId])
    (hconnections : m'.connections = Function.update m.connections n none) :
    m'.Partition maxNumConnections := by
  have hn : m.connectionIdAt n = some c.connectionId := by rw [connectionIdAt, hc, Option.map_some]
  have hheld := connectionIdAt_update hconnections
  rw [Option.map_none] at hheld
  generalize c.connectionId = i at hn havailable
  have hheldAt : ∀ {k j}, m'.connectionIdAt k = some j ↔
      k ≠ n ∧ m.connectionIdAt k = some j := by
    intro k j
    rw [hheld, Function.update_apply]
    split
    · next hk => simp [hk]
    · next hk => simp [hk]
  have hmem : ∀ {j}, j ∈ m'.availableConnectionIds ↔ j ∈ m.availableConnectionIds ∨ j = i := by
    simp [havailable]
  refine ⟨?_, ?_, ?_, ?_⟩
  · rw [havailable]
    exact h.nodup.append (List.nodup_singleton i) (by simpa using h.disjoint hn)
  · intro k k' j hk hk'
    exact h.distinct (hheldAt.mp hk).2 (hheldAt.mp hk').2
  · intro k j hk hj
    obtain ⟨hkn, hk⟩ := hheldAt.mp hk
    rcases hmem.mp hj with hj | rfl
    · exact h.disjoint hk hj
    · exact hkn (h.distinct hk hn)
  · intro j
    rw [h.exact, hmem]
    constructor
    · rintro (hj | ⟨k, hk⟩)
      · exact Or.inl (Or.inl hj)
      · by_cases hkn : k = n
        · subst hkn
          exact Or.inl (Or.inr (Option.some.inj (hk.symm.trans hn)))
        · exact Or.inr ⟨k, hheldAt.mpr ⟨hkn, hk⟩⟩
    · rintro ((hj | rfl) | ⟨k, hk⟩)
      · exact Or.inl hj
      · exact Or.inr ⟨n, hn⟩
      · exact Or.inr ⟨k, (hheldAt.mp hk).2⟩

/-- An id is lost when the connection it was taken for is not built. -/
theorem Partition.not_lost (h : m.Partition maxNumConnections) {i : ConnectionId}
    (hi : m.availableConnectionIds.getLast? = some i) :
    ¬ Partition maxNumConnections
      { m with availableConnectionIds := m.availableConnectionIds.dropLast } := by
  intro h'
  have hids : m.availableConnectionIds.dropLast ++ [i] = m.availableConnectionIds :=
    List.dropLast_append_getLast? i hi
  have hi' : i ∈ m.availableConnectionIds := List.mem_of_getLast? hi
  rcases (h'.exact i).mp ((h.exact i).mpr (Or.inl hi')) with hlast | ⟨k, hk⟩
  · have hnodup := h.nodup
    rw [← hids, List.nodup_append] at hnodup
    exact hnodup.2.2 i hlast i (List.mem_singleton.mpr rfl) rfl
  · exact h.disjoint hk hi'

/-! ## Jobs that return -/

theorem Partition.allocates (h : m.Partition maxNumConnections) (ha : Allocates env n m m') :
    m'.Partition maxNumConnections := by
  cases ha with
  | kept hc => exact h
  | created hc hid hqp => exact h.take hc hid rfl rfl

theorem sameIds_learn {remote : ConnectionExchgData} {c : Connection}
    (hc : m.connections remote.header.nodeId = some c) : m.SameIds (m.learn remote) := by
  refine sameIds_update rfl rfl ?_
  rw [Link.learn_connection (l := m.link remote.header.nodeId) hc remote, connectionIdAt, hc]
  split <;> rfl

theorem sameIds_finishedOrAnswered {remote : ConnectionExchgData} {c : Connection}
    (ipv4 : UInt32) : m.SameIds (m.finishedOrAnswered remote c ipv4) := by
  unfold finishedOrAnswered
  split
  · split
    · exact sameIds_update rfl rfl rfl
    · exact sameIds_update rfl rfl rfl
  · split
    · exact ⟨rfl, rfl⟩
    · exact SameIds.refl m

theorem sameIds_updateState (m : ConnectionManager) (n : NodeId)
    (f : ConnectionState → ConnectionState) : m.SameIds (m.updateState n f) := ⟨rfl, rfl⟩

theorem Partition.dispatched (h : m.Partition maxNumConnections) (hd : Dispatched env m job m') :
    m'.Partition maxNumConnections := by
  cases hd with
  | createDropped | connectDropped | discoveredUnknown => exact h
  | discover | discovered => exact h.of_sameIds ⟨rfl, rfl⟩
  | create hshutdown hinfo halloc hc =>
    rcases halloc with ⟨halloc, -⟩ | rfl
    · exact (h.allocates halloc).of_sameIds ⟨rfl, rfl⟩
    · exact h.of_sameIds ⟨rfl, rfl⟩
  | connect hshutdown hinfo halloc hcreated hc =>
    obtain ⟨c', hc'⟩ := halloc.exists_connection
    exact (h.allocates halloc).of_sameIds
      ((sameIds_learn hc').trans (sameIds_finishedOrAnswered _))
  | close hc => exact h.giveBack hc rfl rfl
  | closeAgain hc => exact h.of_sameIds (sameIds_updateState ..)

theorem Partition.step (h : m.Partition maxNumConnections) {a : Action}
    (hs : step m a = some m') : m'.Partition maxNumConnections := by
  cases a with
  | requestCreation | giveUpCreation | addJob | shutdown =>
    obtain rfl := Option.some.inj hs
    exact h.of_sameIds ⟨rfl, rfl⟩
  | runJob env =>
    obtain ⟨job, jobQueue, -, hd⟩ := step_runJob hs
    have hq : ({ m with jobQueue } : ConnectionManager).Partition maxNumConnections :=
      h.of_sameIds ⟨rfl, rfl⟩
    exact hq.dispatched hd

theorem partition {p : Params} (h : Lts.Reachable step (new p) m) :
    m.Partition p.maxNumConnections :=
  h.invariant (fun _ _ _ hi hs => hi.step hs) (partition_new p)

/-! ## Jobs that allocate nothing -/

section
variable {α β : Type}

theorem LeavesIds.ok {a : α} (h : m.SameIds m') :
    m.LeavesIds (.ok a m' : EStateM.Result Failure ConnectionManager α) :=
  ⟨h, fun he => by cases he⟩

theorem LeavesIds.error {e : Failure} (h : m.SameIds m') (he : e ≠ .emptyVector) :
    m.LeavesIds (.error e m' : EStateM.Result Failure ConnectionManager α) :=
  ⟨h, fun he' => by cases he'; exact he⟩

theorem LeavesIds.bind {x : JobM α} {f : α → JobM β} (hx : m.LeavesIds (x.run m))
    (hf : ∀ a m', x.run m = .ok a m' → m'.LeavesIds ((f a).run m')) :
    m.LeavesIds ((x >>= f).run m) := by
  rw [EStateM.run_bind]
  cases hxm : x.run m with
  | ok a m' =>
    rw [hxm] at hx
    have hfa := hf a m' hxm
    exact ⟨hx.same.trans hfa.same, hfa.nonempty⟩
  | error e m' =>
    rw [hxm] at hx
    exact .error hx.same (hx.nonempty rfl)

end

theorem leavesIds_sendFlags (n : NodeId) (ipv4 : UInt32) (m : ConnectionManager) :
    m.LeavesIds ((sendFlags n ipv4).run m) := by
  cases hc : m.connections n with
  | some c =>
    rw [run_sendFlags hc]
    exact .ok ⟨rfl, rfl⟩
  | none =>
    simp only [sendFlags, sendConnectionExchgData, EStateM.run_bind, EStateM.run_get, hc,
      Exec.run_throw]
    exact .error (.refl m) (by simp)

theorem leavesIds_setConnectionState (n : NodeId) (f : ConnectionState → ConnectionState)
    (m : ConnectionManager) : m.LeavesIds ((setConnectionState n f).run m) :=
  .ok (sameIds_updateState ..)

theorem leavesIds_checkCreated (n : NodeId) (m : ConnectionManager) :
    m.LeavesIds ((checkCreated n).run m) := by
  simp only [checkCreated, EStateM.run_bind, EStateM.run_get, Exec.run_ite]
  split
  · exact .error (.refl m) (by simp)
  · exact .ok (.refl m)

theorem leavesIds_connectToRemote (env : Environment) (remote : ConnectionExchgData)
    (m : ConnectionManager) : m.LeavesIds ((connectToRemote env remote).run m) := by
  simp only [connectToRemote, EStateM.run_bind, EStateM.run_get, Exec.run_ite]
  split
  · exact .ok (.refl m)
  cases hc : m.connections remote.header.nodeId with
  | none => exact .error (.refl m) (by simp)
  | some c =>
    simp only [Exec.run_ite]
    split
    · exact .error (.refl m) (by simp)
    have hid : (some (c.connect remote)).map Connection.connectionId =
        m.connectionIdAt remote.header.nodeId := by
      simp [connectionIdAt, hc]
    refine .bind (.ok (sameIds_update rfl rfl hid)) fun _ m₁ _ => ?_
    refine .bind (.ok (sameIds_of_eq rfl rfl)) fun _ m₂ _ => ?_
    cases env.connected with
    | error e => exact .error (.refl m₂) (by simp)
    | ok u => exact leavesIds_setConnectionState ..

theorem leavesIds_applyRemoteConnected (remote : ConnectionExchgData) (m : ConnectionManager) :
    m.LeavesIds ((applyRemoteConnected remote).run m) := by
  rw [run_applyRemoteConnected]
  exact .ok (sameIds_update rfl rfl rfl)

theorem leavesIds_finishOrAnswer (remote : ConnectionExchgData) (ipv4 : UInt32)
    (m : ConnectionManager) : m.LeavesIds ((finishOrAnswer remote ipv4).run m) := by
  cases hc : m.connections remote.header.nodeId with
  | some c =>
    rw [run_finishOrAnswer hc]
    exact .ok (sameIds_finishedOrAnswered _)
  | none =>
    simp only [finishOrAnswer, EStateM.run_bind, EStateM.run_get, Exec.run_ite]
    split
    · simp only [run_setConnectionState, finishConnection, EStateM.run_bind, EStateM.run_get,
        setLink_connections_self, link_connection, hc, Exec.run_throw]
      exact .error (sameIds_update rfl rfl (by rw [connectionIdAt, hc])) (by simp)
    · split
      · exact leavesIds_sendFlags ..
      · exact .ok (.refl m)

/-- The rest of a connect job, over an allocated connection. -/
def connectAllocated (env : Environment) (remote : ConnectionExchgData) (ipv4 : UInt32) :
    JobM Unit := do
  checkCreated remote.header.nodeId
  setConnectionState remote.header.nodeId fun s =>
    { s with remoteExchgFlags := remote.header.exchgFlags }
  connectToRemote env remote
  applyRemoteConnected remote
  finishOrAnswer remote ipv4

theorem run_jobDispatchConnectConnection_of_discovered {remote : ConnectionExchgData}
    {entry : Entry} (hinfo : m.discoveryManager.nodeInfo remote.header.nodeId = some entry) :
    (jobDispatchConnectConnection env remote).run m =
      (discard (allocateConnection env remote.header.nodeId) >>= fun _ =>
        connectAllocated env remote entry.address).run m := by
  unfold jobDispatchConnectConnection DiscoveryManager.getNodeInfo
  rw [EStateM.run_bind, EStateM.run_get]
  simp only [hinfo]
  rfl

theorem leavesIds_connectAllocated (env : Environment) (remote : ConnectionExchgData)
    (ipv4 : UInt32) (m : ConnectionManager) :
    m.LeavesIds ((connectAllocated env remote ipv4).run m) := by
  unfold connectAllocated
  refine .bind (leavesIds_checkCreated ..) fun _ m₁ _ => ?_
  refine .bind (leavesIds_setConnectionState ..) fun _ m₂ _ => ?_
  refine .bind (leavesIds_connectToRemote ..) fun _ m₃ _ => ?_
  refine .bind (leavesIds_applyRemoteConnected ..) fun _ m₄ _ => ?_
  exact leavesIds_finishOrAnswer ..

/-- A job that allocates calls `__AllocateConnection` without a connection to
the node; the rest of it takes no ids. -/
theorem run_of_allocating (env : Environment) (h : m.Allocating job) :
    ∃ n, ∃ rest : JobM Unit, m.connections n = none ∧
      (∀ m' : ConnectionManager, m'.LeavesIds (rest.run m')) ∧
      (dispatchJob env job).run m =
        (discard (allocateConnection env n) >>= fun _ => rest).run m := by
  cases job with
  | createConnection n =>
    obtain ⟨hshutdown, hinfo, hstate, hnone⟩ := h
    obtain ⟨entry, hentry⟩ := Option.ne_none_iff_exists'.mp hinfo
    refine ⟨n, sendFlags n entry.address, hnone, leavesIds_sendFlags _ _, ?_⟩
    simp [dispatchJob, hshutdown, jobDispatchCreateConnection, DiscoveryManager.getNodeInfo, hentry,
      allocateRequested, hstate]
  | connectConnection remote =>
    obtain ⟨hshutdown, hinfo, hnone⟩ := h
    obtain ⟨entry, hentry⟩ := Option.ne_none_iff_exists'.mp hinfo
    refine ⟨remote.header.nodeId, connectAllocated env remote entry.address, hnone,
      leavesIds_connectAllocated env remote _, ?_⟩
    rw [run_dispatchJob_connect env remote hshutdown,
      run_jobDispatchConnectConnection_of_discovered hentry]
  | closeConnection => exact h.elim
  | discover => exact h.elim
  | discovered => exact h.elim

/-! ## Jobs that throw -/

theorem leavesIds_discovered (ipv4 : UInt32) (n : NodeId) (m : ConnectionManager) :
    m.LeavesIds ((jobDispatchDiscovered ipv4 n).run m) := by
  simp only [jobDispatchDiscovered, EStateM.run_bind, EStateM.run_get]
  split
  · exact .error (.refl m) (by simp)
  · exact .ok (.refl m)
  · simp only [Exec.run_ite, EStateM.run_bind, EStateM.run_set, run_call, EStateM.run_pure]
    split
    · exact .ok (sameIds_of_eq rfl rfl)
    · exact .ok (sameIds_of_eq rfl rfl)

theorem leavesIds_executeDiscovery (m : ConnectionManager) :
    m.LeavesIds (executeDiscovery.run m) := by
  simp only [executeDiscovery, EStateM.run_bind, EStateM.run_get]
  split
  · exact .error (.refl m) (by simp)
  · exact .ok (sameIds_of_eq rfl rfl)

theorem leavesIds_waitReturned (env : Environment) (n : NodeId) (force : Bool) (counter : Int)
    (m : ConnectionManager) : m.LeavesIds ((waitReturned env n force counter).run m) := by
  unfold waitReturned
  split
  · exact .ok (.refl m)
  · split
    · exact leavesIds_setConnectionState ..
    · exact .error (.refl m) (by simp)

/-- A close job that throws has deleted nothing: it still waits. -/
theorem leavesIds_close_error {force shutdown : Bool} {e : Failure}
    (h : (jobDispatchCloseConnection env n force shutdown).run m = .error e m') :
    m.SameIds m' ∧ e ≠ .emptyVector := by
  unfold jobDispatchCloseConnection at h
  rw [EStateM.run_bind, EStateM.run_get] at h
  rcases Exec.run_bind_eq_error.mp h with h₁ | ⟨_, m₁, h₁, h⟩
  · cases h₁
  rw [run_setConnectionState, EStateM.Result.ok.injEq] at h₁
  have hsame₁ : m.SameIds m₁ := h₁.2 ▸ sameIds_update rfl rfl rfl
  rcases Exec.run_bind_eq_error.mp h with h₂ | ⟨_, m₂, h₂, h⟩
  · have hwait := leavesIds_waitReturned env n force (m.connectionStates n).available m₁
    rw [h₂] at hwait
    exact ⟨hsame₁.trans hwait.same, hwait.nonempty rfl⟩
  rw [EStateM.run_bind, EStateM.run_get] at h
  rcases Exec.run_bind_eq_error.mp h with h₃ | ⟨_, m₃, -, h⟩
  · cases h₃
  cases hc : m₂.connections n with
  | none => simp [hc] at h
  | some c =>
    simp only [hc, EStateM.run_bind, run_call, run_setConnectionState, EStateM.run_modify,
      run_invalidate, Exec.run_ite] at h
    split at h
    · cases h
    · cases h

theorem leavesIds_create (env : Environment) (hjob : ¬ m.Allocating (.createConnection n)) :
    m.LeavesIds ((dispatchJob env (.createConnection n)).run m) := by
  cases hshutdown : m.flagShutdown with
  | true =>
    simp only [dispatchJob, EStateM.run_bind, EStateM.run_get, hshutdown, if_true]
    exact .ok (.refl m)
  | false =>
    simp only [dispatchJob, EStateM.run_bind, EStateM.run_get, hshutdown, Bool.false_eq_true,
      if_false, jobDispatchCreateConnection, DiscoveryManager.getNodeInfo]
    cases hinfo : m.discoveryManager.nodeInfo n with
    | none => exact .ok (.refl m)
    | some entry =>
      refine .bind ?_ fun _ m₁ _ => leavesIds_sendFlags ..
      simp only [allocateRequested, EStateM.run_bind, EStateM.run_get, Exec.run_ite]
      split
      · next hstate =>
        obtain ⟨c, hc⟩ : ∃ c, m.connections n = some c :=
          Option.ne_none_iff_exists'.mp fun hnone =>
            hjob ⟨hshutdown, by simp [hinfo], hstate, hnone⟩
        rw [Exec.run_discard_eq_ok.mpr ⟨false, run_allocateConnection_of_some hc⟩]
        exact .ok (.refl m)
      · exact .ok (.refl m)

theorem leavesIds_connect (env : Environment) {remote : ConnectionExchgData}
    (hjob : ¬ m.Allocating (.connectConnection remote)) :
    m.LeavesIds ((dispatchJob env (.connectConnection remote)).run m) := by
  cases hshutdown : m.flagShutdown with
  | true =>
    simp only [dispatchJob, EStateM.run_bind, EStateM.run_get, hshutdown, if_true]
    exact .ok (.refl m)
  | false =>
    rw [run_dispatchJob_connect env remote hshutdown]
    cases hinfo : m.discoveryManager.nodeInfo remote.header.nodeId with
    | none =>
      simp only [jobDispatchConnectConnection, DiscoveryManager.getNodeInfo, EStateM.run_bind,
        EStateM.run_get, hinfo]
      exact .ok (.refl m)
    | some entry =>
      obtain ⟨c, hc⟩ : ∃ c, m.connections remote.header.nodeId = some c :=
        Option.ne_none_iff_exists'.mp fun hnone =>
          hjob ⟨hshutdown, by simp [hinfo], hnone⟩
      rw [run_jobDispatchConnectConnection_of_discovered hinfo]
      refine .bind ?_ fun _ m₁ _ => leavesIds_connectAllocated ..
      rw [Exec.run_discard_eq_ok.mpr ⟨false, run_allocateConnection_of_some hc⟩]
      exact .ok (.refl m)

/-- A job that does not allocate keeps the ids. -/
theorem keepsIds_of_not_allocating (env : Environment) (h : m.Partition maxNumConnections)
    (hjob : ¬ m.Allocating job) : KeepsIds maxNumConnections ((dispatchJob env job).run m) := by
  cases hrun : (dispatchJob env job).run m with
  | ok u m' => exact h.dispatched (run_dispatchJob hrun)
  | error e m' =>
    have hkeeps : m.SameIds m' ∧ e ≠ .emptyVector := by
      have hof : m.LeavesIds ((dispatchJob env job).run m) → m.SameIds m' ∧ e ≠ .emptyVector := by
        intro hleaves
        rw [hrun] at hleaves
        exact ⟨hleaves.same, hleaves.nonempty rfl⟩
      cases job with
      | createConnection n => exact hof (leavesIds_create env hjob)
      | connectConnection remote => exact hof (leavesIds_connect env hjob)
      | closeConnection n force shutdown =>
        have hclose : (jobDispatchCloseConnection env n force shutdown).run m = .error e m' := by
          rw [← hrun, dispatchJob, EStateM.run_bind, EStateM.run_get]
        exact leavesIds_close_error hclose
      | discover => exact hof (leavesIds_executeDiscovery m)
      | discovered ipv4 n => exact hof (leavesIds_discovered ipv4 n m)
    exact ⟨h.of_sameIds hkeeps.1, hkeeps.2⟩

/-- A job that allocates keeps the ids exactly when it finds one and
`_CreateConnection` returns. -/
theorem keepsIds_allocating_iff (env : Environment) (h : m.Partition maxNumConnections)
    (hjob : m.Allocating job) :
    KeepsIds maxNumConnections ((dispatchJob env job).run m) ↔
      m.availableConnectionIds ≠ [] ∧ ∃ qp, env.created = .ok qp := by
  obtain ⟨n, rest, hnone, hrest, hrun⟩ := run_of_allocating env hjob
  have hthrows : ∀ {e m'}, (allocateConnection env n).run m = .error e m' →
      (dispatchJob env job).run m = .error e m' := by
    intro e m' halloc
    rw [hrun]
    exact Exec.run_bind_eq_error.mpr (Or.inl (Exec.run_discard_eq_error.mpr halloc))
  cases hid : m.availableConnectionIds.getLast? with
  | none =>
    have hnil := List.getLast?_eq_none_iff.mp hid
    have hempty : (dispatchJob env job).run m = .error .emptyVector m :=
      hthrows (by simp [allocateConnection, hnone, hid])
    rw [hempty]
    simp [KeepsIds, hnil]
  | some i =>
    have hne : m.availableConnectionIds ≠ [] := List.ne_nil_of_mem (List.mem_of_getLast? hid)
    cases hqp : env.created with
    | error e =>
      have hlost : (dispatchJob env job).run m = .error (.thrown e)
          { m with availableConnectionIds := m.availableConnectionIds.dropLast } :=
        hthrows (by simp [allocateConnection, hnone, hid, hqp])
      rw [hlost]
      simp [KeepsIds, h.not_lost hid]
    | ok qp =>
      refine iff_of_true ?_ ⟨hne, qp, rfl⟩
      cases hjobRun : (dispatchJob env job).run m with
      | ok u m' => exact h.dispatched (run_dispatchJob hjobRun)
      | error e m' =>
        rw [hrun] at hjobRun
        rcases Exec.run_bind_eq_error.mp hjobRun with halloc | ⟨_, m₁, halloc, hrun₁⟩
        · have hthrown := Exec.run_discard_eq_error.mp halloc
          rw [run_allocateConnection_of_created hnone hid hqp] at hthrown
          cases hthrown
        · obtain ⟨b, hb⟩ := Exec.run_discard_eq_ok.mp halloc
          have hleaves := hrest m₁
          rw [hrun₁] at hleaves
          exact ⟨(h.allocates (run_allocateConnection hb)).of_sameIds hleaves.same,
            hleaves.nonempty rfl⟩

/-- In every state a manager reaches, the ids are split between the vector and
the connections; the next job keeps them so unless it allocates and finds no id,
or `_CreateConnection` throws. -/
theorem connectionIds_partitioned {p : Params} (h : Lts.Reachable step (new p) m) :
    m.Partition p.maxNumConnections ∧
      ∀ env job jobQueue, m.jobQueue = job :: jobQueue →
        (KeepsIds p.maxNumConnections ((dispatchJob env job).run { m with jobQueue }) ↔
          (m.Allocating job →
            m.availableConnectionIds ≠ [] ∧ ∃ qp, env.created = .ok qp)) := by
  refine ⟨partition h, fun env job jobQueue _ => ?_⟩
  have hq : ({ m with jobQueue } : ConnectionManager).Partition p.maxNumConnections :=
    (partition h).of_sameIds ⟨rfl, rfl⟩
  have hsame : ({ m with jobQueue } : ConnectionManager).Allocating job ↔ m.Allocating job := by
    cases job <;> rfl
  by_cases hjob : m.Allocating job
  · rw [keepsIds_allocating_iff env hq (hsame.mpr hjob)]
    exact ⟨fun hfound _ => hfound, fun hfound => hfound hjob⟩
  · exact iff_of_true (keepsIds_of_not_allocating env hq (mt hsame.mp hjob))
      fun hallocating => absurd hallocating hjob

/-! ### Two nodes and one id -/

/-- A manager with two nodes to discover, and one connection id. -/
def exampleOneId : Params where
  ownNodeId := 1
  connectionCtxIdent := 0x11
  lid := 1
  maxNumConnections := 1
  listener := false
  discoveryListener := false
  discoveryManager :=
    { infoToGet :=
        [some { hostname := "node2", address := 0x0A000002 },
          some { hostname := "node3", address := 0x0A000003 }] }

/-- The first exchange data of a node. -/
def exampleFrom (nodeId : NodeId) : ConnectionExchgData where
  header := { nodeId, lid := nodeId, conManIdent := 0x22 }
  data := { physicalQPId := 9, psn := 10 }

/-- Both nodes are discovered, and exchange data of node 2 is received. -/
def exampleReceived : List Action :=
  [.addJob (.discovered 0x0A000002 2), .runJob {}, .addJob (.discovered 0x0A000003 3), .runJob {},
    .addJob (.connectConnection (exampleFrom 2))]

/-- The verbs do not create a queue pair. -/
def exampleThrows : Environment where
  created := .error (.ibException "Creating queue pair failed: %s")

theorem exec_exampleReceived :
    ∃ m, Lts.exec step (new exampleOneId) exampleReceived = some m ∧
      m.jobQueue = [.connectConnection (exampleFrom 2)] ∧ m.availableConnectionIds = [0] ∧
      m.flagShutdown = false ∧ m.connections 2 = none ∧
      m.discoveryManager.nodeInfo 2 = some { hostname := "node2", address := 0x0A000002 } := by
  have hrun : (Lts.exec step (new exampleOneId) exampleReceived).map
      (fun m => (m.jobQueue, m.availableConnectionIds, m.flagShutdown, (m.connections 2).isNone,
        m.discoveryManager.nodeInfo 2)) =
      some ([.connectConnection (exampleFrom 2)], [0], false, true,
        some { hostname := "node2", address := 0x0A000002 }) := by
    decide +kernel
  obtain ⟨m, hm, h⟩ := Option.map_eq_some_iff.mp hrun
  simp only [Prod.mk.injEq, Option.isNone_iff_eq_none] at h
  exact ⟨m, hm, h⟩

/-- When `_CreateConnection` throws for node 2 the only id is lost; when it does
not, node 3 finds the vector empty. -/
theorem connectionId_lost :
    (∃ m, Lts.Reachable step (new exampleOneId) m ∧
      m.jobQueue = [.connectConnection (exampleFrom 2)] ∧
      ¬ KeepsIds 1 ((dispatchJob exampleThrows (.connectConnection (exampleFrom 2))).run
        { m with jobQueue := [] })) ∧
    ∃ m, Lts.Reachable step (new exampleOneId) m ∧
      m.jobQueue = [.connectConnection (exampleFrom 3)] ∧
      ∃ m', (dispatchJob {} (.connectConnection (exampleFrom 3))).run { m with jobQueue := [] } =
        .error .emptyVector m' := by
  constructor
  · obtain ⟨m, hm, hq, -, hshutdown, hnone, hinfo⟩ := exec_exampleReceived
    have hpartition : ({ m with jobQueue := [] } : ConnectionManager).Partition 1 :=
      (partition ⟨_, hm⟩).of_sameIds ⟨rfl, rfl⟩
    refine ⟨m, ⟨_, hm⟩, hq, fun hkeeps => ?_⟩
    have hallocating : ({ m with jobQueue := [] } : ConnectionManager).Allocating
        (.connectConnection (exampleFrom 2)) := ⟨hshutdown, by simp [hinfo, exampleFrom], hnone⟩
    obtain ⟨-, qp, hqp⟩ := (keepsIds_allocating_iff _ hpartition hallocating).mp hkeeps
    cases hqp
  · have hrun : (Lts.exec step (new exampleOneId)
        (exampleReceived ++ [.runJob {}, .addJob (.connectConnection (exampleFrom 3))])).map
        (fun m => (m.jobQueue, match (dispatchJob {} (.connectConnection (exampleFrom 3))).run
            { m with jobQueue := [] } with
          | .error e _ => some e
          | .ok _ _ => none)) =
      some ([.connectConnection (exampleFrom 3)], some .emptyVector) := by
      decide +kernel
    obtain ⟨m, hm, h⟩ := Option.map_eq_some_iff.mp hrun
    rw [Prod.mk.injEq] at h
    refine ⟨m, ⟨_, hm⟩, h.1, ?_⟩
    have hthrown := h.2
    split at hthrown
    · next e m' he => exact ⟨m', he.trans (by rw [Option.some.inj hthrown])⟩
    · cases hthrown

theorem connectionIds_partitioned_received :
    ∃ m, Lts.exec step (new exampleOneId) exampleReceived = some m ∧ m.Partition 1 ∧
      KeepsIds 1 ((dispatchJob {} (.connectConnection (exampleFrom 2))).run
        { m with jobQueue := [] }) := by
  obtain ⟨m, hm, hq, hids, -⟩ := exec_exampleReceived
  obtain ⟨hpartition, hnext⟩ := connectionIds_partitioned (p := exampleOneId) ⟨_, hm⟩
  exact ⟨m, hm, hpartition, (hnext {} _ [] hq).mpr fun _ => ⟨by simp [hids], {}, rfl⟩⟩

end ConnectionManager

end Ibdxnet.Con
