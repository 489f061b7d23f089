import Ibdxnet.Connection.ConnectionIds
import Ibdxnet.Connection.Restart
import Mathlib.Data.FinEnum
import Mathlib.Data.Set.Card

/-!
# Opened and closed connections

A connect job that completes a connection counts it in `m_openConnections` and
calls `NodeConnected`; a close job that finds a connection takes it off and
calls `NodeDisconnected`, whether it was ever counted or not: one that is only
allocated is taken off as well, and so is the zombie of a restarted node, which a
connect job sets to connected without counting it.

    Accounted             the counter is the number of open nodes, and the
                          callbacks of each node alternate
    accounted_iff_closesLive
                          Accounted all along a run  ↔  every close job that
                          finds a connection finds it in e_StateConnected, and
                          not one that was found to be a zombie
-/

namespace Ibdxnet.Con

/-- What a call tells a listener of node `n`: connected or disconnected. -/
def Call.event (n : NodeId) : Call → Option Bool
  | .nodeConnected k => if k = n then some true else none
  | .nodeDisconnected k => if k = n then some false else none
  | _ => none

/-- Strictly in turn, starting with `true`. -/
def Alternates (events : List Bool) : Prop := (false :: events).IsChain (· ≠ ·)

namespace ConnectionManager

/-- The callbacks about `n`, `NodeConnected` as `true`. -/
def history (m : ConnectionManager) (n : NodeId) : List Bool := m.calls.filterMap (Call.event n)

/-- `NodeConnected` was called for `n`, and `NodeDisconnected` was not called since. -/
def IsOpen (m : ConnectionManager) (n : NodeId) : Prop := (m.history n).getLast? = some true

structure Accounted (m : ConnectionManager) : Prop where
  openConnections : m.openConnections.toNat = {n | m.IsOpen n}.ncard
  alternates : ∀ n, Alternates (m.history n)

/-- There is a connection to `n`, and its state is connected. -/
structure Live (m : ConnectionManager) (n : NodeId) : Prop where
  connection : m.connections n ≠ none
  state : (m.connectionStates n).state = .connected

/-! ## Zombies -/

/-- The exchange data complete the connection to their sender, but it was made
with another instance of it. -/
structure FindsZombie (m : ConnectionManager) (remote : ConnectionExchgData) : Prop where
  detected : m.Detected remote
  connectedToRemote : (m.connectionStates remote.header.nodeId).isConnectedToRemote = true
  ident : ∃ c ∈ m.connections remote.header.nodeId,
    c.getRemoteConnectionManIdent ≠ remote.header.conManIdent

instance (m : ConnectionManager) (remote : ConnectionExchgData) : Decidable (m.Detected remote) :=
  decidable_of_iff (m.flagShutdown = false ∧
      m.discoveryManager.nodeInfo remote.header.nodeId ≠ none ∧
      (m.connectionStates remote.header.nodeId).state = .created ∧
      remote.header.exchgFlags = exchgFlagCompleted)
    ⟨fun h => ⟨h.1, h.2.1, h.2.2.1, h.2.2.2⟩, fun h => ⟨h.1, h.2, h.3, h.4⟩⟩

instance (m : ConnectionManager) (remote : ConnectionExchgData) :
    Decidable (m.FindsZombie remote) :=
  decidable_of_iff (m.Detected remote ∧
      (m.connectionStates remote.header.nodeId).isConnectedToRemote = true ∧
      ∃ c ∈ m.connections remote.header.nodeId,
        c.getRemoteConnectionManIdent ≠ remote.header.conManIdent)
    ⟨fun h => ⟨h.1, h.2.1, h.2.2⟩, fun h => ⟨h.1, h.2, h.3⟩⟩

def zombieFound (m : ConnectionManager) : Job → List NodeId
  | .connectConnection remote => if m.FindsZombie remote then [remote.header.nodeId] else []
  | .createConnection _ | .closeConnection .. | .discover | .discovered .. => []

/-- The node whose zombie is found by the job that is about to run. -/
def zombiesFound (m : ConnectionManager) : Action → List NodeId
  | .runJob _ => m.jobQueue.head?.toList.flatMap m.zombieFound
  | .requestCreation _ | .giveUpCreation _ | .addJob _ | .shutdown => []

/-- A connection manager, and the nodes whose zombies its jobs have found so far. -/
structure Watched where
  manager : ConnectionManager
  zombies : List NodeId

namespace Watched

def new (p : Params) : Watched := ⟨.new p, []⟩

def step (w : Watched) (a : Action) : Option Watched :=
  (ConnectionManager.step w.manager a).map fun m => ⟨m, w.zombies ++ w.manager.zombiesFound a⟩

/-- If the job is to close a node and finds a connection, it is in state connected
and was not found to be a zombie. -/
def FindsLive (w : Watched) : Job → Prop
  | .closeConnection n _ _ => w.manager.connections n ≠ none →
      (w.manager.connectionStates n).state = .connected ∧ n ∉ w.zombies
  | .createConnection _ | .connectConnection _ | .discover | .discovered .. => True

/-- This holds of the close job that is about to run. -/
def ClosesLive (w : Watched) : Action → Prop
  | .runJob _ => ∀ job ∈ w.manager.jobQueue.head?, w.FindsLive job
  | .requestCreation _ | .giveUpCreation _ | .addJob _ | .shutdown => True

instance (w : Watched) : ∀ job, Decidable (w.FindsLive job)
  | .closeConnection n _ _ => inferInstanceAs (Decidable (w.manager.connections n ≠ none → _ ∧ _))
  | .createConnection _ | .connectConnection _ | .discover | .discovered .. => isTrue trivial

instance (w : Watched) : ∀ a, Decidable (w.ClosesLive a)
  | .runJob _ => inferInstanceAs (Decidable (∀ job ∈ w.manager.jobQueue.head?, w.FindsLive job))
  | .requestCreation _ | .giveUpCreation _ | .addJob _ | .shutdown => isTrue trivial

/-- Watching changes nothing. -/
theorem exec_manager (w : Watched) (as : List Action) :
    (Lts.exec step w as).map manager = Lts.exec ConnectionManager.step w.manager as :=
  Lts.exec_map (fun w a => by rw [step, Option.map_map]; exact Option.map_id') w as

end Watched

end ConnectionManager

/-! ## Callbacks in turn -/

theorem alternates_nil : Alternates [] := List.isChain_singleton _

theorem alternates_concat {events : List Bool} {b : Bool} :
    Alternates (events ++ [b]) ↔ Alternates events ∧ events.getLast?.getD false ≠ b := by
  rw [Alternates, ← List.cons_append, List.isChain_append]
  simp [Alternates, List.getLast?_cons]

theorem alternates_concat_true {events : List Bool} :
    Alternates (events ++ [true]) ↔ Alternates events ∧ events.getLast? ≠ some true := by
  rw [alternates_concat]
  cases events.getLast? with
  | none => simp
  | some b => cases b <;> simp

theorem alternates_concat_false {events : List Bool} :
    Alternates (events ++ [false]) ↔ Alternates events ∧ events.getLast? = some true := by
  rw [alternates_concat]
  cases events.getLast? with
  | none => simp
  | some b => cases b <;> simp

namespace ConnectionManager

variable {m m' m'' : ConnectionManager} {env : Environment} {n k : NodeId} {job : Job}

/-! ## What a job does to one node -/

/-- Nothing is opened or closed. -/
structure KeepsOpen (m m' : ConnectionManager) : Prop where
  openConnections : m'.openConnections = m.openConnections
  history : ∀ k, m'.history k = m.history k
  live : ∀ k, m'.Live k ↔ m.Live k

/-- The connection to `n` is completed. -/
structure Opens (n : NodeId) (m m' : ConnectionManager) : Prop where
  openConnections : m'.openConnections = m.openConnections + 1
  history : ∀ k, m'.history k = if k = n then m.history k ++ [true] else m.history k
  live : ∀ k, m'.Live k ↔ k = n ∨ m.Live k
  before : ¬ m.Live n

/-- The connection to `n` is set to connected, but not opened. -/
structure Kills (n : NodeId) (m m' : ConnectionManager) : Prop where
  openConnections : m'.openConnections = m.openConnections
  history : ∀ k, m'.history k = m.history k
  live : ∀ k, m'.Live k ↔ k = n ∨ m.Live k
  before : ¬ m.Live n

/-- The connection to `n` is closed. -/
structure Closes (n : NodeId) (m m' : ConnectionManager) : Prop where
  openConnections : m'.openConnections = m.openConnections - 1
  history : ∀ k, m'.history k = if k = n then m.history k ++ [false] else m.history k
  live : ∀ k, m'.Live k ↔ k ≠ n ∧ m.Live k

/-- What a step that closes nothing does, with the zombies it finds. -/
inductive Turns (m m' : ConnectionManager) : List NodeId → Prop
  | keeps : m.KeepsOpen m' → Turns m m' []
  | opens (n : NodeId) : Opens n m m' → Turns m m' []
  | kills (n : NodeId) : Kills n m m' → Turns m m' [n]

theorem history_append {calls : List Call} (h : m'.calls = m.calls ++ calls) (k : NodeId) :
    m'.history k = m.history k ++ calls.filterMap (Call.event k) := by
  rw [history, h, List.filterMap_append, history]

theorem history_eq (h : m'.calls = m.calls) (k : NodeId) : m'.history k = m.history k := by
  rw [history, h, history]

theorem KeepsOpen.refl (m : ConnectionManager) : m.KeepsOpen m :=
  ⟨rfl, fun _ => rfl, fun _ => Iff.rfl⟩

theorem KeepsOpen.trans (h : m.KeepsOpen m') (h' : m'.KeepsOpen m'') : m.KeepsOpen m'' :=
  ⟨h'.openConnections.trans h.openConnections, fun k => (h'.history k).trans (h.history k),
    fun k => (h'.live k).trans (h.live k)⟩

theorem KeepsOpen.trans_turns {zombies : List NodeId} (h : m.KeepsOpen m')
    (h' : Turns m' m'' zombies) : Turns m m'' zombies := by
  cases h' with
  | keeps h' => exact .keeps (h.trans h')
  | opens n h' =>
    exact .opens n ⟨by rw [h'.openConnections, h.openConnections],
      fun k => by rw [h'.history, h.history], fun k => by rw [h'.live, h.live],
      fun hn => h'.before ((h.live n).mpr hn)⟩
  | kills n h' =>
    exact .kills n ⟨by rw [h'.openConnections, h.openConnections],
      fun k => by rw [h'.history, h.history], fun k => by rw [h'.live, h.live],
      fun hn => h'.before ((h.live n).mpr hn)⟩

/-- Whether a node is live depends on the two tables only. -/
theorem live_congr (hstates : m'.connectionStates = m.connectionStates)
    (hconnections : m'.connections = m.connections) (k : NodeId) : m'.Live k ↔ m.Live k :=
  ⟨fun h => ⟨hconnections ▸ h.connection, hstates ▸ h.state⟩,
    fun h => ⟨hconnections.symm ▸ h.connection, hstates.symm ▸ h.state⟩⟩

/-- The link to `n` changes. -/
theorem live_update {l : Link} (hstates : m'.connectionStates =
      Function.update m.connectionStates n l.state)
    (hconnections : m'.connections = Function.update m.connections n l.connection) :
    m'.Live k ↔ if k = n then l.connection ≠ none ∧ l.state.state = .connected else m.Live k := by
  by_cases hk : k = n
  · subst hk
    rw [if_pos rfl]
    constructor
    · intro h
      have hconnection := h.connection
      have hstate := h.state
      rw [hconnections, Function.update_self] at hconnection
      rw [hstates, Function.update_self] at hstate
      exact ⟨hconnection, hstate⟩
    · rintro ⟨hconnection, hstate⟩
      exact ⟨by rw [hconnections, Function.update_self]; exact hconnection,
        by rw [hstates, Function.update_self]; exact hstate⟩
  · rw [if_neg hk]
    constructor
    · intro h
      have hconnection := h.connection
      have hstate := h.state
      rw [hconnections, Function.update_of_ne hk] at hconnection
      rw [hstates, Function.update_of_ne hk] at hstate
      exact ⟨hconnection, hstate⟩
    · intro h
      exact ⟨by rw [hconnections, Function.update_of_ne hk]; exact h.connection,
        by rw [hstates, Function.update_of_ne hk]; exact h.state⟩

/-- A change of the link to `n` that leaves it as live as it is. -/
theorem live_update_same {l : Link} (hstates : m'.connectionStates =
      Function.update m.connectionStates n l.state)
    (hconnections : m'.connections = Function.update m.connections n l.connection)
    (hl : m.Live n ↔ l.connection ≠ none ∧ l.state.state = .connected) (k : NodeId) :
    m'.Live k ↔ m.Live k := by
  rw [live_update hstates hconnections, ← hl]
  split
  · next hk => rw [hk]
  · rfl

theorem Allocates.keepsOpen (h : Allocates env n m m') : m.KeepsOpen m' := by
  cases h with
  | kept hc => exact .refl m
  | created hc hid hqp =>
    refine ⟨rfl, fun k => (history_append rfl k).trans (by simp [Call.event]), ?_⟩
    exact live_update_same rfl rfl
      (iff_of_false (fun hlive => hlive.connection hc) (by simp [Link.allocate]))

theorem keepsOpen_learn {remote : ConnectionExchgData} {c : Connection}
    (hc : m.connections remote.header.nodeId = some c) : m.KeepsOpen (m.learn remote) := by
  refine ⟨rfl, fun k => ?_, live_update_same rfl rfl ?_⟩
  · cases hset : (m.connectionStates remote.header.nodeId).isConnectedToRemote with
    | true => exact history_eq (by simp [learn, hset]) k
    | false =>
      have hcalls : (m.learn remote).calls = m.calls ++ [.connect remote.header.nodeId remote] := by
        simp [learn, hset]
      rw [history_append hcalls]
      simp [Call.event]
  · rw [Link.learn_connection (l := m.link remote.header.nodeId) hc remote]
    exact ⟨fun hlive => ⟨by simp, hlive.state⟩, fun h => ⟨by simp [hc], h.2⟩⟩

/-- The connection to `n` becomes connected. -/
theorem live_connected {c : Connection} {s : ConnectionState} (hs : s.state = .connected)
    (hc : m.connections n = some c)
    (hstates : m'.connectionStates = Function.update m.connectionStates n s)
    (hconnections : m'.connections = Function.update m.connections n (m.connections n))
    (k : NodeId) : m'.Live k ↔ k = n ∨ m.Live k := by
  rw [live_update (l := { state := s, connection := m.connections n }) hstates hconnections, hc]
  by_cases hk : k = n <;> simp [hk, hs]

/-- The end of a connect job opens the node, finds a zombie, or does neither. -/
theorem finishedOrAnswered_turns (hl : m.listener = true) {remote : ConnectionExchgData}
    {c : Connection} (hc : m.connections remote.header.nodeId = some c) (ipv4 : UInt32) :
    Turns m (m.finishedOrAnswered remote c ipv4)
      (if m.Completes remote.header.nodeId ∧
          c.getRemoteConnectionManIdent ≠ remote.header.conManIdent then
        [remote.header.nodeId] else []) := by
  unfold finishedOrAnswered
  by_cases hcompletes : m.Completes remote.header.nodeId
  · have hbefore : ¬ m.Live remote.header.nodeId := by
      intro hlive
      have hstate := hcompletes.2
      rw [hlive.state] at hstate
      cases hstate
    rw [if_pos hcompletes]
    by_cases hident : c.getRemoteConnectionManIdent ≠ remote.header.conManIdent
    · rw [if_pos hident, if_pos ⟨hcompletes, hident⟩]
      exact .kills _ ⟨rfl, fun k => history_eq rfl k, live_connected rfl hc rfl rfl, hbefore⟩
    · rw [if_neg hident, if_neg fun h => hident h.2]
      have hcalls : (m.opened remote.header.nodeId).calls =
          m.calls ++
            [.connectionOpened remote.header.nodeId, .nodeConnected remote.header.nodeId] := by
        simp [opened, hl]
      refine .opens _ ⟨rfl, fun k => ?_, live_connected rfl hc rfl rfl, hbefore⟩
      rw [history_append hcalls]
      simp only [List.filterMap_cons, Call.event, List.filterMap_nil]
      by_cases hk : k = remote.header.nodeId
      · simp [hk]
      · simp [hk, Ne.symm hk]
  · rw [if_neg hcompletes, if_neg (not_and_of_not_left _ hcompletes)]
    split
    · exact .keeps ⟨rfl, fun k => history_eq rfl k, live_congr rfl rfl⟩
    · exact .keeps (.refl m)

/-- What the state before a connect job says of its end. -/
theorem findsZombie_iff {m₁ : ConnectionManager} {remote : ConnectionExchgData} {c : Connection}
    {entry : Entry} (h : m.Holds) (hshutdown : m.flagShutdown = false)
    (hinfo : m.discoveryManager.nodeInfo remote.header.nodeId = some entry)
    (halloc : Allocates env remote.header.nodeId m m₁)
    (hc : (m₁.learn remote).connections remote.header.nodeId = some c) :
    m.FindsZombie remote ↔ (m₁.learn remote).Completes remote.header.nodeId ∧
      c.getRemoteConnectionManIdent ≠ remote.header.conManIdent := by
  have hcompletes : (m₁.learn remote).Completes _ ↔ _ :=
    completes_learn_iff ((h.allocates halloc) _)
  have hlearned : ∀ c₁, m₁.connections remote.header.nodeId = some c₁ →
      c = if (m₁.connectionStates remote.header.nodeId).isConnectedToRemote then c₁
        else c₁.connect remote := by
    intro c₁ hc₁
    have hlearn := Link.learn_connection (l := m₁.link remote.header.nodeId) hc₁ remote
    have hlink : ((m₁.link remote.header.nodeId).learn remote).connection = some c :=
      (congrArg Link.connection (link_setLink_self m₁ _ _)).symm.trans hc
    rw [hlearn, Option.some.injEq] at hlink
    exact hlink.symm
  rw [hcompletes]
  cases halloc with
  | @kept c₁ hc₁ =>
    have hc' := hlearned c₁ hc₁
    cases hset : (m.connectionStates remote.header.nodeId).isConnectedToRemote with
    | true =>
      rw [hset, if_pos rfl] at hc'
      subst hc'
      constructor
      · rintro ⟨hdetected, -, c', hc', hident⟩
        rw [hc₁, Option.mem_some_iff] at hc'
        exact ⟨⟨hdetected.created, hdetected.completed⟩, hc' ▸ hident⟩
      · rintro ⟨⟨hcreated, hcompleted⟩, hident⟩
        exact ⟨⟨hshutdown, by simp [hinfo], hcreated, hcompleted⟩, hset, c, hc₁, hident⟩
    | false =>
      rw [hset, if_neg Bool.false_ne_true] at hc'
      refine iff_of_false (fun hzombie => ?_) fun hc => hc.2 (by rw [hc']; rfl)
      rw [hzombie.connectedToRemote] at hset
      cases hset
  | @created connectionId qp hnone hid hqp =>
    -- a new connection is made with the instance that sent the data
    have hflags := ((h remote.header.nodeId).unallocated hnone).1
    have hset : ((m.allocated remote.header.nodeId connectionId qp).connectionStates
        remote.header.nodeId).isConnectedToRemote = false := by
      rw [allocated, setLink_connectionStates_self]
      simp only [Link.allocate, ConnectionState.isConnectedToRemote, ConnectionState.isFlagSet]
      rw [hflags]
      rfl
    have hc' := hlearned _ (by rw [allocated, setLink_connections_self]; rfl)
    rw [hset, if_neg Bool.false_ne_true] at hc'
    refine iff_of_false (fun hzombie => ?_) fun hc => hc.2 (by rw [hc']; rfl)
    obtain ⟨-, -, c', hmem, -⟩ := hzombie
    rw [hnone] at hmem
    cases hmem

theorem closes_closed (hl : m.listener = true) (n : NodeId) (c : Connection)
    (force shutdown : Bool) : Closes n m (m.closed n c force shutdown) := by
  refine ⟨rfl, fun k => ?_, fun k => ?_⟩
  · have hevents : (m.closed n c force shutdown).history k =
        m.history k ++ [Call.nodeDisconnected n].filterMap (Call.event k) := by
      simp only [history, closed, hl, if_true, List.filterMap_append, List.filterMap_cons,
        Call.event]
      split <;> simp [Call.event]
    rw [hevents]
    simp only [List.filterMap_cons, Call.event, List.filterMap_nil]
    by_cases hk : k = n
    · simp [hk]
    · simp [hk, Ne.symm hk]
  · rw [live_update (m := m) (l := (m.link n).closed) rfl rfl]
    by_cases hk : k = n <;> simp [hk, Link.closed]

/-- A job closes a connection, or does what it does to the others. -/
theorem Dispatched.cases_open (hl : m.listener = true) (hh : m.Holds)
    (hd : Dispatched env m job m') :
    Turns m m' (m.zombieFound job) ∨
      ∃ n force shutdown, job = .closeConnection n force shutdown ∧ m.connections n ≠ none ∧
        Closes n m m' := by
  cases hd with
  | createDropped | discoveredUnknown => exact Or.inl (.keeps (.refl m))
  | @connectDropped remote hdrop =>
    have hnot : ¬ m.FindsZombie remote := by
      intro hzombie
      rcases hdrop with hshutdown | hinfo
      · exact Bool.noConfusion (hshutdown.symm.trans hzombie.detected.running)
      · exact hzombie.detected.discovered hinfo
    rw [zombieFound, if_neg hnot]
    exact Or.inl (.keeps (.refl m))
  | @discover ipv4s hipv4s =>
    have hnone : ∀ k, (ipv4s.map Call.discoveryReq).filterMap (Call.event k) = [] := by
      intro k
      rw [List.filterMap_eq_nil_iff]
      simp [Call.event]
    exact Or.inl (.keeps ⟨rfl,
      fun k => (history_append rfl k).trans (by rw [hnone, List.append_nil]),
      live_congr rfl rfl⟩)
  | @discovered ipv4 n entry rest htake =>
    refine Or.inl (.keeps ⟨rfl, fun k => (history_append rfl k).trans ?_,
      live_congr rfl rfl⟩)
    split <;> simp [Call.event]
  | create hshutdown hinfo halloc hc =>
    have hanswered : ∀ (m₁ : ConnectionManager) n c ipv4, m₁.KeepsOpen (m₁.answered n c ipv4) :=
      fun m₁ n c ipv4 => ⟨rfl, fun k => history_eq rfl k, live_congr rfl rfl⟩
    rcases halloc with ⟨halloc, -⟩ | rfl
    · exact Or.inl (.keeps (halloc.keepsOpen.trans (hanswered _ _ _ _)))
    · exact Or.inl (.keeps (hanswered _ _ _ _))
  | @connect remote entry m₁ c hshutdown hinfo halloc hcreated hc =>
    obtain ⟨c', hc'⟩ := halloc.exists_connection
    have hlearned := halloc.keepsOpen.trans (keepsOpen_learn hc')
    have hl₁ : (m₁.learn remote).listener = true := by
      cases halloc with
      | kept => exact hl
      | created => exact hl
    have hturns := hlearned.trans_turns (finishedOrAnswered_turns hl₁ hc entry.address)
    simp only [zombieFound, findsZombie_iff hh hshutdown hinfo halloc hc]
    exact Or.inl hturns
  | @close n force shutdown c hc =>
    exact Or.inr ⟨n, force, shutdown, rfl, by simp [hc], closes_closed hl n c force shutdown⟩
  | @closeAgain n force shutdown hc =>
    refine Or.inl (.keeps ⟨rfl, fun k => history_eq rfl k, ?_⟩)
    rw [updateState_eq]
    exact live_update_same rfl rfl
      ⟨fun hlive => ⟨hlive.connection, hlive.state⟩, fun hlive => ⟨hlive.1, hlive.2⟩⟩

/-! ## The counter -/

/-- The counter is right, and the open nodes are those with a connection in state
connected but the zombies. -/
structure Counted (m : ConnectionManager) (zombies : List NodeId) : Prop where
  accounted : m.Accounted
  isOpen_iff : ∀ n, m.IsOpen n ↔ m.Live n ∧ n ∉ zombies
  zombie : ∀ n ∈ zombies, m.Live n

theorem isOpen_concat (h : m'.history k = if k = n then m.history k ++ [b] else m.history k) :
    m'.IsOpen k ↔ if k = n then b = true else m.IsOpen k := by
  rw [IsOpen, h]
  split
  · simp
  · rfl

/-- There are no more open nodes than ids. -/
theorem ncard_isOpen_le {maxNumConnections : UInt16} (hp : m.Partition maxNumConnections)
    (hlive : ∀ n, m.IsOpen n → m.Live n) :
    {n | m.IsOpen n}.ncard ≤ maxNumConnections.toNat := by
  have hid : ∀ {n}, m.IsOpen n → ∃ i, m.connectionIdAt n = some i := by
    intro n hn
    obtain ⟨c, hc⟩ := Option.ne_none_iff_exists'.mp (hlive n hn).connection
    exact ⟨c.connectionId, by rw [connectionIdAt, hc, Option.map_some]⟩
  have hle := Set.ncard_le_ncard_of_injOn (s := {n | m.IsOpen n})
    (t := (Finset.range maxNumConnections.toNat : Set Nat))
    (fun n => ((m.connectionIdAt n).getD 0).toNat) ?_ ?_ (Finset.finite_toSet _)
  · rwa [Set.ncard_coe_finset, Finset.card_range] at hle
  · intro n hn
    obtain ⟨i, hi⟩ := hid hn
    rw [Finset.mem_coe, Finset.mem_range, hi, Option.getD_some]
    exact (hp.exact i).mpr (Or.inr ⟨n, hi⟩)
  · intro n hn k hk hnk
    obtain ⟨i, hi⟩ := hid hn
    obtain ⟨j, hj⟩ := hid hk
    simp only [hi, hj, Option.getD_some] at hnk
    exact hp.distinct hi (UInt16.toNat_inj.mp hnk ▸ hj)

/-- The same nodes are open, as many are counted, and one more may be a zombie. -/
theorem Counted.of_history {zombies zombies' : List NodeId} (h : m.Counted zombies)
    (hopenConnections : m'.openConnections = m.openConnections)
    (hhistory : ∀ k, m'.history k = m.history k)
    (hlive : ∀ k, m'.Live k ∧ k ∉ zombies' ↔ m.Live k ∧ k ∉ zombies)
    (hzombie : ∀ k ∈ zombies', m'.Live k) : m'.Counted zombies' := by
  have hopen : ∀ n, m'.IsOpen n ↔ m.IsOpen n := fun n => by rw [IsOpen, hhistory, IsOpen]
  refine ⟨⟨?_, fun n => hhistory n ▸ h.accounted.alternates n⟩, fun n => ?_, hzombie⟩
  · rw [hopenConnections, h.accounted.openConnections]
    simp only [hopen]
  · rw [hopen, h.isOpen_iff, hlive]

theorem Counted.opens {maxNumConnections : UInt16} {zombies : List NodeId}
    (h : m.Counted zombies) (ho : Opens n m m') (hp : m'.Partition maxNumConnections) :
    m'.Counted zombies := by
  have hclosed : n ∉ {k | m.IsOpen k} := fun hn => ho.before ((h.isOpen_iff n).mp hn).1
  have hopen : ∀ k, m'.IsOpen k ↔ k = n ∨ m.IsOpen k := by
    intro k
    rw [isOpen_concat (ho.history k)]
    by_cases hk : k = n <;> simp [hk]
  have hzombie : n ∉ zombies := fun hn => ho.before (h.zombie n hn)
  have hiff : ∀ k, m'.IsOpen k ↔ m'.Live k ∧ k ∉ zombies := by
    intro k
    rw [hopen, ho.live, h.isOpen_iff]
    by_cases hk : k = n
    · simp [hk, hzombie]
    · simp [hk]
  have hset : {k | m'.IsOpen k} = insert n {k | m.IsOpen k} := by
    ext k
    exact hopen k
  have hcard : {k | m'.IsOpen k}.ncard = {k | m.IsOpen k}.ncard + 1 := by
    rw [hset, Set.ncard_insert_of_notMem hclosed (Set.toFinite _)]
  refine ⟨⟨?_, fun k => ?_⟩, hiff, fun k hk => (ho.live k).mpr (Or.inr (h.zombie k hk))⟩
  · -- there is an id for each open node, so the counter does not wrap
    have hle := ncard_isOpen_le hp fun k hk => ((hiff k).mp hk).1
    have hmax := maxNumConnections.toNat_lt
    have hcount := h.accounted.openConnections
    rw [ho.openConnections, UInt16.toNat_add, hcard, hcount, UInt16.toNat_one]
    omega
  · rw [ho.history k]
    split
    · next hk =>
      subst hk
      exact alternates_concat_true.mpr ⟨h.accounted.alternates k, hclosed⟩
    · exact h.accounted.alternates k

theorem Counted.turns {maxNumConnections : UInt16} {zombies found : List NodeId}
    (h : m.Counted zombies) (ht : Turns m m' found) (hp : m'.Partition maxNumConnections) :
    m'.Counted (zombies ++ found) := by
  cases ht with
  | keeps hk =>
    rw [List.append_nil]
    exact h.of_history hk.openConnections hk.history (fun k => by rw [hk.live])
      fun k hz => (hk.live k).mpr (h.zombie k hz)
  | opens n ho =>
    rw [List.append_nil]
    exact h.opens ho hp
  | kills n hkills =>
    -- the new zombie was neither live nor a zombie before
    refine h.of_history hkills.openConnections hkills.history (fun k => ?_) fun k hz => ?_
    · rw [hkills.live, List.mem_append, List.mem_singleton]
      by_cases hk : k = n
      · simp [hk, hkills.before]
      · simp [hk]
    · rw [hkills.live]
      rcases List.mem_append.mp hz with hz | hz
      · exact Or.inr (h.zombie k hz)
      · exact Or.inl (List.mem_singleton.mp hz)

theorem Counted.closes {zombies : List NodeId} (h : m.Counted zombies) (hc : Closes n m m')
    (hn : m.IsOpen n) : m'.Counted zombies := by
  have hmem : n ∈ {k | m.IsOpen k} := hn
  have hopen : ∀ k, m'.IsOpen k ↔ m.IsOpen k ∧ k ≠ n := by
    intro k
    rw [isOpen_concat (hc.history k)]
    by_cases hk : k = n <;> simp [hk]
  have hset : {k | m'.IsOpen k} = {k | m.IsOpen k} \ {n} := by
    ext k
    exact hopen k
  have hpos : 0 < {k | m.IsOpen k}.ncard := (Set.ncard_pos (Set.toFinite _)).mpr ⟨n, hmem⟩
  have hcount := h.accounted.openConnections
  refine ⟨⟨?_, fun k => ?_⟩, fun k => ?_, fun k hz => ?_⟩
  · have hone : (1 : UInt16) ≤ m.openConnections := by
      rw [UInt16.le_iff_toNat_le, hcount, UInt16.toNat_one]
      exact hpos
    rw [hc.openConnections, UInt16.toNat_sub_of_le _ _ hone, hset,
      Set.ncard_sdiff_singleton_of_mem hmem, hcount, UInt16.toNat_one]
  · rw [hc.history k]
    split
    · next hk =>
      subst hk
      exact alternates_concat_false.mpr ⟨h.accounted.alternates k, hn⟩
    · exact h.accounted.alternates k
  · rw [hopen, h.isOpen_iff, hc.live]
    tauto
  · refine (hc.live k).mpr ⟨?_, h.zombie k hz⟩
    rintro rfl
    exact ((h.isOpen_iff k).mp hn).2 hz

/-- A close of a node that is not open breaks the alternation. -/
theorem Closes.isOpen_of_accounted (hc : Closes n m m') (h : m'.Accounted) : m.IsOpen n := by
  have halternates := h.alternates n
  rw [hc.history n, if_pos rfl, alternates_concat_false] at halternates
  exact halternates.2

/-! ## Runs -/

theorem listener_finishedOrAnswered (remote : ConnectionExchgData) (c : Connection)
    (ipv4 : UInt32) : (m.finishedOrAnswered remote c ipv4).listener = m.listener := by
  unfold finishedOrAnswered
  split
  · split <;> rfl
  · split <;> rfl

theorem Dispatched.listener (hd : Dispatched env m job m') : m'.listener = m.listener := by
  have hallocates : ∀ {n m₁}, Allocates env n m m₁ → m₁.listener = m.listener := by
    intro n m₁ halloc
    cases halloc <;> rfl
  cases hd with
  | create hshutdown hinfo halloc hc =>
    rcases halloc with ⟨halloc, -⟩ | rfl
    · have hanswered := hallocates halloc
      exact hanswered
    · rfl
  | connect hshutdown hinfo halloc hcreated hc =>
    have hlearned := hallocates halloc
    exact (listener_finishedOrAnswered ..).trans hlearned
  | _ => rfl

theorem step_listener {a : Action} (hs : step m a = some m') : m'.listener = m.listener := by
  cases a with
  | runJob env =>
    obtain ⟨job, jobQueue, -, hd⟩ := step_runJob hs
    exact hd.listener
  | _ =>
    obtain rfl := Option.some.inj hs
    rfl

theorem step_cases_open (hl : m.listener = true) (hh : m.Holds) {a : Action}
    (hs : step m a = some m') :
    Turns m m' (m.zombiesFound a) ∨
      ∃ env n force shutdown jobQueue, a = .runJob env ∧
        m.jobQueue = .closeConnection n force shutdown :: jobQueue ∧ m.connections n ≠ none ∧
        m.zombiesFound a = [] ∧ Closes n m m' := by
  cases a with
  | requestCreation n =>
    obtain rfl := Option.some.inj hs
    rw [updateState_eq]
    refine Or.inl (.keeps ⟨rfl, fun _ => rfl, live_update_same rfl rfl
      ⟨fun hlive => ⟨hlive.connection, ?_⟩, fun hlive => ⟨hlive.1, ?_⟩⟩⟩)
    · simp [ConnectionState.requestCreation, hlive.state]
    · have hstate := hlive.2
      simp only [ConnectionState.requestCreation] at hstate
      split at hstate
      · cases hstate
      · exact hstate
  | giveUpCreation n =>
    obtain rfl := Option.some.inj hs
    rw [updateState_eq]
    refine Or.inl (.keeps ⟨rfl, fun _ => rfl, live_update_same rfl rfl
      ⟨fun hlive => ⟨hlive.connection, ?_⟩, fun hlive => ⟨hlive.1, ?_⟩⟩⟩)
    · simp [ConnectionState.giveUpCreation, hlive.state]
    · have hstate := hlive.2
      simp only [ConnectionState.giveUpCreation] at hstate
      split at hstate
      · cases hstate
      · exact hstate
  | addJob job =>
    obtain rfl := Option.some.inj hs
    exact Or.inl (.keeps ⟨rfl, fun _ => rfl, live_congr rfl rfl⟩)
  | shutdown =>
    obtain rfl := Option.some.inj hs
    exact Or.inl (.keeps ⟨rfl, fun _ => rfl, live_congr rfl rfl⟩)
  | runJob env =>
    obtain ⟨job, jobQueue, hq, hd⟩ := step_runJob hs
    have hpopped : m.KeepsOpen { m with jobQueue } := ⟨rfl, fun _ => rfl, live_congr rfl rfl⟩
    have hfound : m.zombiesFound (.runJob env) = m.zombieFound job := by
      simp [zombiesFound, hq]
    have hl' : ({ m with jobQueue } : ConnectionManager).listener = true := hl
    have hh' : ({ m with jobQueue } : ConnectionManager).Holds := hh
    rcases hd.cases_open hl' hh' with hturns | ⟨n, force, shutdown, rfl, hc, hcloses⟩
    · rw [hfound]
      have hsame : ({ m with jobQueue } : ConnectionManager).zombieFound job =
          m.zombieFound job := by
        cases job with
        | connectConnection remote =>
          have hiff : ({ m with jobQueue } : ConnectionManager).FindsZombie remote ↔
              m.FindsZombie remote :=
            ⟨fun h => ⟨⟨h.detected.1, h.detected.2, h.detected.3, h.detected.4⟩, h.2, h.3⟩,
              fun h => ⟨⟨h.detected.1, h.detected.2, h.detected.3, h.detected.4⟩, h.2, h.3⟩⟩
          simp only [zombieFound, hiff]
        | createConnection | closeConnection | discover | discovered => rfl
      rw [← hsame]
      exact Or.inl (hpopped.trans_turns hturns)
    · refine Or.inr ⟨env, n, force, shutdown, jobQueue, rfl, hq, hc, ?_,
        hcloses.openConnections, hcloses.history, fun k => ?_⟩
      · rw [hfound]
        rfl
      · rw [hcloses.live, hpopped.live]

/-- A close job that finds a connection closes it. -/
theorem step_closes (hl : m.listener = true) {force shutdown : Bool} {jobQueue : List Job}
    (hq : m.jobQueue = .closeConnection n force shutdown :: jobQueue) (hc : m.connections n ≠ none)
    (hs : step m (.runJob env) = some m') : Closes n m m' := by
  obtain ⟨job, jobQueue', hq', hd⟩ := step_runJob hs
  rw [hq, List.cons.injEq] at hq'
  obtain ⟨rfl, rfl⟩ := hq'
  cases hd with
  | @close _ _ _ c hc' =>
    have hl' : ({ m with jobQueue } : ConnectionManager).listener = true := hl
    have hcloses := closes_closed hl' n c force shutdown
    have hpopped : ∀ k, ({ m with jobQueue } : ConnectionManager).Live k ↔ m.Live k :=
      live_congr rfl rfl
    exact ⟨hcloses.openConnections, hcloses.history, fun k => by rw [hcloses.live, hpopped]⟩
  | closeAgain hnone => exact absurd hnone hc

theorem counted_new (p : Params) : (new p).Counted [] := by
  have hclosed : ∀ n, ¬ (new p).IsOpen n := fun n => by simp [IsOpen, history, new]
  refine ⟨⟨?_, fun n => alternates_nil⟩, fun n => ?_, fun n hn => absurd hn List.not_mem_nil⟩
  · simp only [hclosed, Set.ofPred_false, Set.ncard_empty]
    rfl
  · exact iff_of_false (hclosed n) fun h => h.1.connection rfl

namespace Watched

variable {w w' : Watched}

/-- What the counter rests on: the ids bound it, there is a listener, and flags
are only set with a connection. -/
structure Counting (maxNumConnections : UInt16) (w : Watched) : Prop where
  counted : w.manager.Counted w.zombies
  partition : w.manager.Partition maxNumConnections
  listener : w.manager.listener = true
  holds : w.manager.Holds

theorem Counting.step {maxNumConnections : UInt16} (h : w.Counting maxNumConnections) {a : Action}
    (ha : w.ClosesLive a) (hs : w.step a = some w') : w'.Counting maxNumConnections := by
  obtain ⟨m, hm, rfl⟩ := Option.map_eq_some_iff.mp hs
  have hp := h.partition.step hm
  refine ⟨?_, hp, (step_listener hm).trans h.listener, h.holds.step hm⟩
  rcases step_cases_open h.listener h.holds hm with
    hturns | ⟨env, n, force, shutdown, jobQueue, rfl, hq, hc, hnone, hcloses⟩
  · exact h.counted.turns hturns hp
  · have hfinds : w.FindsLive (.closeConnection n force shutdown) := ha _ (by rw [hq]; rfl)
    obtain ⟨hstate, hzombie⟩ := hfinds hc
    rw [hnone, List.append_nil]
    exact h.counted.closes hcloses ((h.counted.isOpen_iff n).mpr ⟨⟨hc, hstate⟩, hzombie⟩)

/-- A step to an accounted state closes nothing but live connections. -/
theorem Counting.closesLive {maxNumConnections : UInt16} (h : w.Counting maxNumConnections)
    {a : Action} (hs : w.step a = some w') (haccounted : w'.manager.Accounted) :
    w.ClosesLive a := by
  obtain ⟨m, hm, rfl⟩ := Option.map_eq_some_iff.mp hs
  cases a with
  | runJob env =>
    intro job hjob
    cases job with
    | closeConnection n force shutdown =>
      intro hc
      obtain ⟨jobQueue, hq⟩ := List.head?_eq_some_iff.mp hjob
      have hopen := (step_closes h.listener hq hc hm).isOpen_of_accounted haccounted
      obtain ⟨hlive, hzombie⟩ := (h.counted.isOpen_iff n).mp hopen
      exact ⟨hlive.state, hzombie⟩
    | createConnection | connectConnection | discover | discovered => trivial
  | requestCreation | giveUpCreation | addJob | shutdown => trivial

/-- The runs of the manager are those of the watched one. -/
theorem forall_exec_iff {p : Params} {Q : ConnectionManager → Prop} (bs : List Action) :
    (∀ m, Lts.exec ConnectionManager.step (.new p) bs = some m → Q m) ↔
      ∀ w, Lts.exec step (new p) bs = some w → Q w.manager := by
  have hexec : (Lts.exec step (new p) bs).map manager =
      Lts.exec ConnectionManager.step (.new p) bs := exec_manager (new p) bs
  constructor
  · intro h w hw
    exact h w.manager (by rw [← hexec, hw, Option.map_some])
  · intro h m hm
    obtain ⟨w, hw, rfl⟩ := Option.map_eq_some_iff.mp (hexec.trans hm)
    exact h w hw

end Watched

/-- All along a run the counter is right and the callbacks alternate, exactly when
every close job that finds a connection finds it in state connected, and not one
that was found to be a zombie. -/
theorem accounted_iff_closesLive {p : Params} (hl : p.listener = true) {as : List Action}
    (h : Lts.exec step (new p) as = some m) :
    (∀ bs, bs <+: as → ∀ m, Lts.exec step (new p) bs = some m → m.Accounted) ↔
      Lts.Along Watched.step Watched.ClosesLive (Watched.new p) as := by
  obtain ⟨w, hw, -⟩ := Option.map_eq_some_iff.mp ((Watched.exec_manager (.new p) as).trans h)
  rw [← Lts.forall_prefix_iff_along (I := Watched.Counting p.maxNumConnections)
    (Q := fun w => w.manager.Accounted) (fun w hc => hc.counted.accounted)
    (fun w a w' hc ha hs => hc.step ha hs) (fun w a w' hc hs hq => hc.closesLive hs hq)
    ⟨counted_new p, partition_new p, hl, holds_new p⟩ hw]
  exact forall₂_congr fun bs _ => Watched.forall_exec_iff bs

/-! ### A connection that is closed -/

/-- The connection to node 2 is completed by these exchange data, or not, and closed. -/
def exampleClose (remotes : List ConnectionExchgData) : List Action :=
  exampleCreation ++
    (remotes.flatMap fun remote => [.addJob (.connectConnection remote), .runJob {}]) ++
    [.addJob (.closeConnection 2 true false), .runJob {}]

/-- A connection that was only allocated is closed: the counter underflows, and
the first callback is `NodeDisconnected`. -/
theorem close_of_allocated_unaccounted :
    ∃ m, Lts.exec step (new exampleParams) (exampleClose []) = some m ∧
      m.openConnections = 0xFFFF ∧ m.history 2 = [false] ∧ ¬ m.Accounted := by
  have hrun : (Lts.exec step (new exampleParams) (exampleClose [])).map
      (fun m => (m.openConnections, m.history 2)) = some (0xFFFF, [false]) := by
    decide +kernel
  obtain ⟨m, hm, h⟩ := Option.map_eq_some_iff.mp hrun
  rw [Prod.mk.injEq] at h
  refine ⟨m, hm, h.1, h.2, fun haccounted => ?_⟩
  have halternates := haccounted.alternates 2
  rw [h.2] at halternates
  simp [Alternates] at halternates

theorem accounted_completed :
    ∃ m, Lts.exec step (new exampleParams) (exampleClose [exampleRemote 3 1 0x22]) = some m ∧
      m.history 2 = [true, false] ∧
      ∀ bs, bs <+: exampleClose [exampleRemote 3 1 0x22] → ∀ w,
        Lts.exec step (new exampleParams) bs = some w → w.Accounted := by
  have hrun : (Lts.exec step (new exampleParams) (exampleClose [exampleRemote 3 1 0x22])).map
      (fun m => m.history 2) = some [true, false] := by
    decide +kernel
  obtain ⟨m, hm, h⟩ := Option.map_eq_some_iff.mp hrun
  exact ⟨m, hm, h, (accounted_iff_closesLive rfl hm).mpr (by decide +kernel)⟩

end ConnectionManager

end Ibdxnet.Con
