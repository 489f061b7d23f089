import Ibdxnet.Connection.HostileTraffic

/-!
# Create jobs

A create job allocates the connection only while its creation is requested, and
then sends the data of the connection without looking whether there is one.
What it meets when it gets there:

    m_state  e_StateInCreation              allocated, unless that throws
             e_StateCreated or Connected    there is a connection
             e_StateNotAvailable            a null pointer

so a create job of a discovered node is safe exactly if the request stands when
it runs (`createSafe_iff`).  Between the two the state goes back to not available
when a `GetConnection` times out and when a close job runs; in the runs where
neither happens while a create job is queued every create job is safe.
-/

namespace Ibdxnet.Con

namespace ConnectionManager

/-- `__JobDispatchCreateConnection` gets to `__SendConnectionExchgData` in the manager `m₁`. -/
structure ReachesSend (env : Environment) (m : ConnectionManager) (n : NodeId)
    (m₁ : ConnectionManager) : Prop where
  running : m.flagShutdown = false
  discovered : m.discoveryManager.nodeInfo n ≠ none
  allocated : (allocateRequested env n).run m = .ok () m₁

/-- If a create job runs next and sends, there is a connection. -/
def CreateSafe (m : ConnectionManager) : Action → Prop
  | .runJob env => ∀ n jobQueue m₁, m.jobQueue = .createConnection n :: jobQueue →
      ReachesSend env { m with jobQueue } n m₁ → m₁.connections n ≠ none
  | _ => True

/-- If a create job of a discovered node runs next, the state of the node is not
back to `e_StateNotAvailable`. -/
def RequestStands (m : ConnectionManager) : Action → Prop
  | .runJob _ => ∀ n jobQueue, m.jobQueue = .createConnection n :: jobQueue →
      m.flagShutdown = false → m.discoveryManager.nodeInfo n ≠ none →
      (m.connectionStates n).state ≠ .notAvailable
  | _ => True

/-- The node a close job is about. -/
def closedNode : Job → Option NodeId
  | .closeConnection n _ _ => some n
  | .createConnection _ | .connectConnection _ | .discover | .discovered _ _ => none

/-- The node a create job is about. -/
def createdNode : Job → Option NodeId
  | .createConnection n => some n
  | .connectConnection _ | .closeConnection _ _ _ | .discover | .discovered _ _ => none

/-- No request is given up and no connection closed while a create job of the node
is queued, and none is queued without a request. -/
def Steady (m : ConnectionManager) : Action → Prop
  | .giveUpCreation n => .createConnection n ∉ m.jobQueue
  | .addJob job => ∀ n ∈ createdNode job, (m.connectionStates n).state ≠ .notAvailable
  | .runJob _ => ∀ n ∈ m.jobQueue.head?.bind closedNode, .createConnection n ∉ m.jobQueue
  | .requestCreation _ | .shutdown => True

instance Steady.instDecidable (m : ConnectionManager) : (a : Action) → Decidable (Steady m a)
  | .giveUpCreation n => inferInstanceAs (Decidable (.createConnection n ∉ m.jobQueue))
  | .addJob job => Option.decidableForallMem (o := createdNode job)
    (p := fun n => (m.connectionStates n).state ≠ .notAvailable)
  | .runJob _ => Option.decidableForallMem (o := m.jobQueue.head?.bind closedNode)
    (p := fun n => Job.createConnection n ∉ m.jobQueue)
  | .requestCreation _ | .shutdown => isTrue trivial

section
variable {m m' m₁ : ConnectionManager} {env : Environment} {n : NodeId}

/-! ## One create job -/

theorem run_allocateRequested (h : (allocateRequested env n).run m = .ok () m₁) :
    (m.connectionStates n).state = .inCreation ∧ Allocates env n m m₁ ∨
      (m.connectionStates n).state ≠ .inCreation ∧ m₁ = m := by
  simp only [allocateRequested, EStateM.run_bind, EStateM.run_get, Exec.run_ite] at h
  split at h
  · next hrequested =>
    obtain ⟨b, hb⟩ := Exec.run_discard_eq_ok.mp h
    exact Or.inl ⟨hrequested, run_allocateConnection hb⟩
  · next hrequested =>
    simp only [EStateM.run_pure, EStateM.Result.ok.injEq] at h
    exact Or.inr ⟨hrequested, h.2.symm⟩

/-- There is a connection behind the allocation unless the state is not available. -/
theorem Holds.connections_ne_none_iff (h : m.Holds)
    (hrun : (allocateRequested env n).run m = .ok () m₁) :
    m₁.connections n ≠ none ↔ (m.connectionStates n).state ≠ .notAvailable := by
  have hlink := (h n).allocated
  rcases run_allocateRequested hrun with ⟨hstate, halloc⟩ | ⟨hstate, rfl⟩
  · obtain ⟨c, hc⟩ := halloc.exists_connection
    simp [hc, hstate]
  · rw [← Option.isSome_iff_ne_none]
    refine hlink.trans ?_
    cases hs : (m₁.connectionStates n).state with
    | inCreation => exact absurd hs hstate
    | notAvailable | created | connected => simp [hs, State.val]

theorem allocateRequested_throws :
    Exec.Throws (fun e => e ≠ .nullPointer) (allocateRequested env n) := by
  refine Exec.Throws.get.bind fun m => Exec.Throws.ite ?_ (Exec.Throws.pure _)
  intro s e s' h
  have h := Exec.run_discard_eq_error.mp h
  cases hc : s.connections n with
  | some c => simp [run_allocateConnection_of_some hc] at h
  | none =>
    cases hid : s.availableConnectionIds.getLast? with
    | none =>
      simp only [allocateConnection, EStateM.run_bind, EStateM.run_get, hc, hid,
        Exec.run_throw] at h
      cases h
      simp
    | some connectionId =>
      cases hqp : env.created with
      | error e' =>
        simp only [allocateConnection, EStateM.run_bind, EStateM.run_get, hc, hid, hqp] at h
        cases h
        simp
      | ok qp => simp [run_allocateConnection_of_created hc hid hqp] at h

theorem run_sendFlags_nullPointer (ipv4 : UInt32) :
    (∃ m', (sendFlags n ipv4).run m = .error .nullPointer m') ↔ m.connections n = none := by
  cases hc : m.connections n with
  | none => simp [sendFlags, sendConnectionExchgData, hc]
  | some c => simp [run_sendFlags hc]

/-- A create job dereferences a null pointer exactly if it sends without a connection. -/
theorem createConnection_nullPointer_iff :
    (∃ m', (dispatchJob env (.createConnection n)).run m = .error .nullPointer m') ↔
      ∃ m₁, ReachesSend env m n m₁ ∧ m₁.connections n = none := by
  have hjob : m.flagShutdown = false → (dispatchJob env (.createConnection n)).run m =
      (jobDispatchCreateConnection env n).run m := fun hshutdown => by
    simp [dispatchJob, hshutdown]
  constructor
  · rintro ⟨m', hrun⟩
    cases hshutdown : m.flagShutdown with
    | true => simp [dispatchJob, hshutdown] at hrun
    | false =>
      rw [hjob hshutdown] at hrun
      cases hinfo : m.discoveryManager.nodeInfo n with
      | none =>
        simp [jobDispatchCreateConnection, DiscoveryManager.getNodeInfo, hinfo] at hrun
      | some entry =>
        simp only [jobDispatchCreateConnection, DiscoveryManager.getNodeInfo, EStateM.run_bind,
          EStateM.run_get, hinfo] at hrun
        cases halloc : (allocateRequested env n).run m with
        | error e m₁ =>
          rw [halloc] at hrun
          cases hrun
          exact absurd rfl (allocateRequested_throws _ _ _ halloc)
        | ok u m₁ =>
          rw [halloc] at hrun
          exact ⟨m₁, ⟨hshutdown, by simp [hinfo], halloc⟩,
            (run_sendFlags_nullPointer entry.address).mp ⟨m', hrun⟩⟩
  · rintro ⟨m₁, hreaches, hc⟩
    obtain ⟨entry, hinfo⟩ := Option.ne_none_iff_exists'.mp hreaches.discovered
    obtain ⟨m', hsend⟩ := (run_sendFlags_nullPointer entry.address).mpr hc
    refine ⟨m', ?_⟩
    simp only [hjob hreaches.running, jobDispatchCreateConnection, DiscoveryManager.getNodeInfo,
      EStateM.run_bind, EStateM.run_get, hinfo, hreaches.allocated, hsend]

/-- A state that is not available does not keep the job from the send. -/
theorem exists_reachesSend (hshutdown : m.flagShutdown = false)
    (hinfo : m.discoveryManager.nodeInfo n ≠ none)
    (hstate : (m.connectionStates n).state = .notAvailable) : ReachesSend env m n m where
  running := hshutdown
  discovered := hinfo
  allocated := by
    simp [allocateRequested, hstate]

theorem createSafe_iff (h : m.Holds) (a : Action) : CreateSafe m a ↔ RequestStands m a := by
  cases a with
  | runJob env =>
    constructor
    · intro hsafe n jobQueue hq hshutdown hinfo hstate
      have hreaches : ReachesSend env { m with jobQueue } n { m with jobQueue } :=
        exists_reachesSend hshutdown hinfo hstate
      have hq' : ({ m with jobQueue } : ConnectionManager).Holds := h
      exact (hq'.connections_ne_none_iff hreaches.allocated).mp
        (hsafe n jobQueue _ hq hreaches) hstate
    · intro hstands n jobQueue m₁ hq hreaches
      have hq' : ({ m with jobQueue } : ConnectionManager).Holds := h
      exact (hq'.connections_ne_none_iff hreaches.allocated).mpr
        (hstands n jobQueue hq hreaches.running hreaches.discovered)
  | requestCreation | giveUpCreation | addJob | shutdown => rfl

/-! ## Runs -/

theorem setLink_state_ne {l : Link} {k : NodeId} (hl : k = n → l.state.state ≠ .notAvailable)
    (h : (m.connectionStates k).state ≠ .notAvailable) :
    ((m.setLink n l).connectionStates k).state ≠ .notAvailable := by
  by_cases hk : k = n
  · subst hk
    rw [setLink_connectionStates_self]
    exact hl rfl
  · rw [← link_state, link_setLink_of_ne m n l hk]
    exact h

theorem Allocates.state_ne (ha : Allocates env n m m') {k : NodeId}
    (h : (m.connectionStates k).state ≠ .notAvailable) :
    (m'.connectionStates k).state ≠ .notAvailable := by
  cases ha with
  | kept => exact h
  | created => exact setLink_state_ne (fun _ => by simp [Link.allocate]) h

theorem finishedOrAnswered_state_ne {remote : ConnectionExchgData} {c : Connection}
    {ipv4 : UInt32} {k : NodeId} (h : (m.connectionStates k).state ≠ .notAvailable) :
    ((m.finishedOrAnswered remote c ipv4).connectionStates k).state ≠ .notAvailable := by
  unfold finishedOrAnswered
  split
  · split
    · exact setLink_state_ne (fun _ => by simp) h
    · exact setLink_state_ne (fun _ => by simp) h
  · split
    · exact h
    · exact h

/-- A job that does not close `k` does not make its state not available. -/
theorem Dispatched.state_ne {job : Job} (hd : Dispatched env m job m') {k : NodeId}
    (hclose : ∀ force shutdown, job ≠ .closeConnection k force shutdown)
    (hstate : (m.connectionStates k).state ≠ .notAvailable) :
    (m'.connectionStates k).state ≠ .notAvailable := by
  cases hd with
  | createDropped | connectDropped | discover | discoveredUnknown | discovered => exact hstate
  | create hshutdown hinfo halloc hc =>
    rcases halloc with ⟨halloc, -⟩ | rfl
    · exact halloc.state_ne hstate
    · exact hstate
  | connect hshutdown hinfo halloc hcreated hc =>
    refine finishedOrAnswered_state_ne
      (setLink_state_ne (fun _ hnot => ?_) (halloc.state_ne hstate))
    simp only [Link.learn, link_state] at hnot
    simp [hnot, State.val] at hcreated
  | close hc =>
    refine setLink_state_ne (fun hk => ?_) hstate
    subst hk
    exact absurd rfl (hclose _ _)
  | closeAgain hnone =>
    rw [updateState_eq]
    refine setLink_state_ne (fun hk => ?_) hstate
    subst hk
    exact absurd rfl (hclose _ _)

/-- A job queues a create job only behind the close of a connection it found dead. -/
theorem Dispatched.mem_createConnection {job : Job} (hd : Dispatched env m job m') {k : NodeId}
    (hmem : .createConnection k ∈ m'.jobQueue) :
    .createConnection k ∈ m.jobQueue ∨ (m'.connectionStates k).state = .connected := by
  cases hd with
  | createDropped | connectDropped | discover | discoveredUnknown | discovered =>
    exact Or.inl hmem
  | create hshutdown hinfo halloc hc =>
    rcases halloc with ⟨halloc, -⟩ | rfl
    · exact Or.inl (halloc.jobQueue ▸ hmem)
    · exact Or.inl hmem
  | connect hshutdown hinfo halloc hcreated hc =>
    unfold finishedOrAnswered at hmem ⊢
    split at hmem
    · split at hmem
      · next hcompletes hdead =>
        rw [if_pos hcompletes, if_pos hdead]
        rcases List.mem_append.mp hmem with hmem | hmem
        · exact Or.inl (halloc.jobQueue ▸ hmem)
        · simp only [List.mem_cons, reduceCtorEq, Job.createConnection.injEq, List.not_mem_nil,
            or_false, false_or] at hmem
          subst hmem
          exact Or.inr (by simp [killed])
      · exact Or.inl (halloc.jobQueue ▸ hmem)
    · split at hmem
      · exact Or.inl (halloc.jobQueue ▸ hmem)
      · exact Or.inl (halloc.jobQueue ▸ hmem)
  | @close n force shutdown c hc =>
    cases shutdown with
    | true => exact Or.inl hmem
    | false =>
      rcases List.mem_append.mp hmem with hmem | hmem
      · exact Or.inl hmem
      · simp at hmem
  | closeAgain => exact Or.inl hmem

/-- Whatever is queued was requested, and the request stands. -/
def Requested (m : ConnectionManager) : Prop :=
  ∀ n, .createConnection n ∈ m.jobQueue → (m.connectionStates n).state ≠ .notAvailable

theorem Requested.step (h : m.Requested) {a : Action} (ha : Steady m a)
    (hs : step m a = some m') : m'.Requested := by
  cases a with
  | requestCreation n =>
    obtain rfl := Option.some.inj hs
    intro k hk
    rw [updateState_eq]
    refine setLink_state_ne (fun _ => ?_) (h k hk)
    simp only [ConnectionState.requestCreation]
    split
    · simp
    · next hstate => exact hstate
  | giveUpCreation n =>
    obtain rfl := Option.some.inj hs
    intro k hk
    rw [updateState_eq]
    refine setLink_state_ne (fun hkn => ?_) (h k hk)
    subst hkn
    exact absurd hk ha
  | addJob job =>
    obtain rfl := Option.some.inj hs
    intro k hk
    rcases List.mem_append.mp hk with hk | hk
    · exact h k hk
    · obtain rfl := List.mem_singleton.mp hk
      exact ha k rfl
  | runJob env =>
    obtain ⟨job, jobQueue, hq, hd⟩ := step_runJob hs
    intro k hk
    rcases hd.mem_createConnection hk with hmem | hconnected
    · have hrequested := h k (by rw [hq]; exact List.mem_cons_of_mem job hmem)
      refine hd.state_ne (fun force shutdown hjob => ?_) hrequested
      subst hjob
      refine ha k ?_ (by rw [hq]; exact List.mem_cons_of_mem _ hmem)
      rw [hq]
      rfl
    · simp [hconnected]
  | shutdown =>
    obtain rfl := Option.some.inj hs
    exact h

theorem createSafe_iff_no_nullPointer (m : ConnectionManager) (env : Environment) :
    CreateSafe m (.runJob env) ↔ ∀ n jobQueue, m.jobQueue = .createConnection n :: jobQueue →
      ¬ ∃ m', (dispatchJob env (.createConnection n)).run { m with jobQueue } =
        .error .nullPointer m' := by
  constructor
  · intro hsafe n jobQueue hq hnull
    obtain ⟨m₁, hreaches, hc⟩ := createConnection_nullPointer_iff.mp hnull
    exact hsafe n jobQueue m₁ hq hreaches hc
  · intro hnever n jobQueue m₁ hq hreaches hc
    exact hnever n jobQueue hq (createConnection_nullPointer_iff.mpr ⟨m₁, hreaches, hc⟩)

/-- In every run each create job that sends finds a connection, exactly if the request
stands whenever a create job of a discovered node runs; it does in the runs that do
not take requests back while they are queued.  A create job that finds none dereferences
a null pointer. -/
theorem createJobs_safe_iff (p : Params) (as : List Action) :
    (Lts.Along step CreateSafe (new p) as ↔ Lts.Along step RequestStands (new p) as) ∧
      (Lts.Along step Steady (new p) as → Lts.Along step CreateSafe (new p) as) ∧
      ∀ m env, CreateSafe m (.runJob env) ↔ ∀ n jobQueue,
        m.jobQueue = .createConnection n :: jobQueue →
          ¬ ∃ m', (dispatchJob env (.createConnection n)).run { m with jobQueue } =
            .error .nullPointer m' := by
  refine ⟨?_, fun hsteady => ?_, createSafe_iff_no_nullPointer⟩
  · exact Lts.along_congr (I := Holds) (fun m a h => createSafe_iff h a)
      (fun m a m' h hs => h.step hs) (holds_new p)
  · refine hsteady.imp (I := fun m => m.Holds ∧ m.Requested) (fun m a h _ => ?_)
      (fun m a m' h ha hs => ⟨h.1.step hs, h.2.step ha hs⟩)
      ⟨holds_new p, fun n hn => by cases hn⟩
    refine (createSafe_iff h.1 a).mpr ?_
    cases a with
    | runJob env => exact fun n jobQueue hq _ _ => h.2 n (by rw [hq]; exact List.mem_cons_self)
    | requestCreation | giveUpCreation | addJob | shutdown => trivial

end

/-- Node 2 is configured. -/
def exampleConfigured : Params :=
  { ExchangeManager.exampleOwn with
    discoveryManager := .new "node1" [ExchangeManager.exampleNode] }

/-- Node 2 is discovered, and the job that creates the connection to it is queued. -/
def exampleRequest : List Action :=
  [.addJob (.discovered 0x0A000002 2), .runJob {}, .requestCreation 2,
    .addJob (.createConnection 2)]

theorem createJobs_safe_request :
    Lts.Along step CreateSafe (new exampleConfigured) (exampleRequest ++ [.runJob {}]) :=
  (createJobs_safe_iff exampleConfigured _).2.1 (by decide +kernel)

/-- The `GetConnection` that queued it times out before the job runs. -/
theorem timeout_before_create_not_safe :
    ¬ Lts.Along step CreateSafe (new exampleConfigured)
      ((exampleRequest ++ [.giveUpCreation 2]) ++ [.runJob {}]) := by
  intro halong
  have hmap : (Lts.exec step (new exampleConfigured)
      (exampleRequest ++ [.giveUpCreation 2])).map (fun m =>
        (m.jobQueue, m.flagShutdown, m.discoveryManager.nodeInfo 2, m.connections 2,
          (m.connectionStates 2).state)) =
      some ([.createConnection 2], false, some ExchangeManager.exampleNode, none,
        .notAvailable) := by decide +kernel
  obtain ⟨m, hm, hv⟩ := Option.map_eq_some_iff.mp hmap
  simp only [Prod.mk.injEq] at hv
  obtain ⟨hq, hshutdown, hinfo, hc, hstate⟩ := hv
  have hsafe := (Lts.along_cons.mp ((Lts.along_append.mp halong).2 m hm)).1
  exact hsafe 2 [] _ hq (exists_reachesSend hshutdown (by simp [hinfo]) hstate) hc

end ConnectionManager

end Ibdxnet.Con
