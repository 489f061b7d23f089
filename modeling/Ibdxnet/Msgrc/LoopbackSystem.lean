import Ibdxnet.Connection.DiscoveredConnections
import Ibdxnet.Connection.OpenConnections
import Ibdxnet.Msgrc.FullBuffer

/-!
# The loopback system

`MsgrcLoopbackSystem` listens to discovery and connection manager, and offers its
send buffer to one target node after the other once as many nodes are there as
it has targets.

    the k-th target it looks at is target k modulo their number
                                                          (looked_in_turn)
    a node is available exactly when it is discovered, and only such nodes
      are sent to                                         (available_iff_discovered)

The second holds as long as no discovered job overwrites the entry of another
node: then the node is counted twice and taken off once.
-/

namespace Ibdxnet.Msgrc

open Ibdxnet.Con
open ConnectionManager (NodeAction nodeStep)

structure MsgrcLoopbackSystem where
  sendTargetNodeIds : List NodeId
  sendBufferSize : Nat
  availableTargetNodes : NodeId → Bool
  targetNodesAvailable : NodeId
  workPackage : NextWorkPackage
  nodeToSendToPos : NodeId
  /-- the targets `GetNextDataToSend` has looked at -/
  looked : List NodeId

namespace MsgrcLoopbackSystem

/-- Nothing to send. -/
def noPackage : NextWorkPackage where
  posBackRel := 0
  posFrontRel := 0
  flowControlData := 0
  nodeId := nodeIdInvalid

def new (sendTargetNodeIds : List NodeId) (sendBufferSize : Nat) : MsgrcLoopbackSystem where
  sendTargetNodeIds := sendTargetNodeIds
  sendBufferSize := sendBufferSize
  availableTargetNodes _ := false
  targetNodesAvailable := 0
  workPackage := noPackage
  nodeToSendToPos := 0
  looked := []

variable (s : MsgrcLoopbackSystem)

def nodeDiscovered (nodeId : NodeId) : MsgrcLoopbackSystem :=
  { s with
    availableTargetNodes := Function.update s.availableTargetNodes nodeId true
    targetNodesAvailable := s.targetNodesAvailable + 1 }

def nodeDisconnected (nodeId : NodeId) : MsgrcLoopbackSystem :=
  { s with
    targetNodesAvailable := s.targetNodesAvailable - 1
    availableTargetNodes := Function.update s.availableTargetNodes nodeId false }

/-- What the managers tell: `NodeConnected` and `NodeInvalidated` only log. -/
def tell (s : MsgrcLoopbackSystem) : Call → MsgrcLoopbackSystem
  | .nodeDiscovered nodeId => s.nodeDiscovered nodeId
  | .nodeDisconnected nodeId => s.nodeDisconnected nodeId
  | _ => s

/-- The offer to a target node, and the position of the next one. -/
def lookAt (nodeId : NodeId) : MsgrcLoopbackSystem :=
  { s with
    workPackage :=
      -- always send full send buffer
      if s.availableTargetNodes nodeId then fullBufferPackage s.sendBufferSize nodeId
      -- node not discovered, don't send anything
      else noPackage
    nodeToSendToPos :=
      if (s.nodeToSendToPos + 1).toNat ≥ s.sendTargetNodeIds.length then 0
      else s.nodeToSendToPos + 1
    looked := s.looked ++ [nodeId] }

/-- `GetNextDataToSend`, which leaves its answer in `m_workPackage`; `none` when it
reads past the end of one of its tables. -/
def getNextDataToSend : Option MsgrcLoopbackSystem :=
  -- wait for all send target nodes to be available
  if s.sendTargetNodeIds.length > 0 ∧
      s.targetNodesAvailable.toNat ≥ s.sendTargetNodeIds.length then
    match s.sendTargetNodeIds[s.nodeToSendToPos.toNat]? with
    | none => none
    | some nodeId => if ExchangeManager.InRange nodeId then some (s.lookAt nodeId) else none
  else
    some { s with workPackage := noPackage }

/-! ## Target after target -/

inductive Action
  | told (c : Call)
  | getNextDataToSend
  deriving DecidableEq, Repr

def step (s : MsgrcLoopbackSystem) : Action → Option MsgrcLoopbackSystem
  | .told c => some (s.tell c)
  | .getNextDataToSend => s.getNextDataToSend

/-- The position is where the last look left it. -/
structure InTurn (targets : List NodeId) (s : MsgrcLoopbackSystem) : Prop where
  targets_eq : s.sendTargetNodeIds = targets
  pos : s.nodeToSendToPos.toNat = s.looked.length % targets.length
  looked : ∀ k, k < s.looked.length → s.looked[k]? = targets[k % targets.length]?

variable {s} {s' : MsgrcLoopbackSystem} {targets : List NodeId}

theorem inTurn_new (targets : List NodeId) (sendBufferSize : Nat) :
    (new targets sendBufferSize).InTurn targets where
  targets_eq := rfl
  pos := (Nat.zero_mod _).symm
  looked k hk := absurd hk (Nat.not_lt_zero k)

theorem InTurn.tell (h : s.InTurn targets) (c : Call) : (s.tell c).InTurn targets := by
  cases c with
  | nodeDiscovered | nodeDisconnected => exact ⟨h.targets_eq, h.pos, h.looked⟩
  | createConnection | connect | close | connectionOpened | nodeConnected | connectionClosed
  | nodeInvalidated | discoveryReq => exact h

/-- Past the last target the position starts again. -/
theorem pos_succ {n pos : Nat} (hpos : pos < n) (k : Nat) (hk : pos = k % n) :
    (if pos + 1 ≥ n then 0 else pos + 1) = (k + 1) % n := by
  rw [Nat.add_mod, ← hk]
  rcases Nat.lt_or_ge (pos + 1) n with hlt | hge
  · have hone : 1 % n = 1 := Nat.mod_eq_of_lt (by omega)
    rw [if_neg (by omega), hone, Nat.mod_eq_of_lt hlt]
  · have hn : n = pos + 1 := by omega
    rw [if_pos hge]
    rcases Nat.eq_zero_or_pos pos with rfl | hlt
    · rw [hn, Nat.mod_one]
    · rw [Nat.mod_eq_of_lt (show 1 < n by omega), ← hn, Nat.mod_self]

/-- The position is one of a target, and the next one is no overflow. -/
theorem InTurn.pos_lt (h : s.InTurn targets) (hsome : targets.length > 0)
    (hall : s.targetNodesAvailable.toNat ≥ targets.length) :
    s.nodeToSendToPos.toNat < targets.length ∧
      (s.nodeToSendToPos + 1).toNat = s.nodeToSendToPos.toNat + 1 := by
  have hlt : s.nodeToSendToPos.toNat < targets.length := by
    rw [h.pos]
    exact Nat.mod_lt _ hsome
  have htargets := s.targetNodesAvailable.toNat_lt
  refine ⟨hlt, ?_⟩
  rw [UInt16.toNat_add]
  exact Nat.mod_eq_of_lt (by simp; omega)

theorem InTurn.lookAt (h : s.InTurn targets) (hsome : targets.length > 0)
    (hall : s.targetNodesAvailable.toNat ≥ targets.length) {nodeId : NodeId}
    (hnode : targets[s.nodeToSendToPos.toNat]? = some nodeId) :
    (s.lookAt nodeId).InTurn targets := by
  obtain ⟨hlt, hword⟩ := h.pos_lt hsome hall
  refine ⟨h.targets_eq, ?_, fun k hk => ?_⟩
  · change (if (s.nodeToSendToPos + 1).toNat ≥ s.sendTargetNodeIds.length then 0
      else s.nodeToSendToPos + 1).toNat = (s.looked ++ [nodeId]).length % targets.length
    rw [h.targets_eq, List.length_append, List.length_singleton,
      ← pos_succ hlt s.looked.length h.pos, apply_ite UInt16.toNat, hword]
    rfl
  · change (s.looked ++ [nodeId])[k]? = _
    change k < (s.looked ++ [nodeId]).length at hk
    rw [List.length_append, List.length_singleton] at hk
    rcases Nat.lt_or_eq_of_le (Nat.le_of_lt_succ hk) with hk | rfl
    · rw [List.getElem?_append_left hk]
      exact h.looked k hk
    · rw [List.getElem?_concat_length, ← h.pos, hnode]

/-- The target whose turn it is, once as many nodes are available as there are targets. -/
def next (targets : List NodeId) (s : MsgrcLoopbackSystem) : Option NodeId :=
  if s.targetNodesAvailable.toNat ≥ targets.length then
    targets[s.looked.length % targets.length]?
  else none

/-- `GetNextDataToSend` waits, or reads the table of available nodes at the target whose turn it
is; that of `NODE_ID_INVALID` is past its end. -/
theorem InTurn.getNextDataToSend (h : s.InTurn targets) :
    (s.next targets = none ∧ s.getNextDataToSend = some { s with workPackage := noPackage }) ∨
    ∃ nodeId ∈ targets, s.next targets = some nodeId ∧
      s.targetNodesAvailable.toNat ≥ targets.length ∧
      (ExchangeManager.InRange nodeId ∧ s.getNextDataToSend = some (s.lookAt nodeId) ∧
          (s.lookAt nodeId).InTurn targets ∨
        nodeId = nodeIdInvalid ∧ s.getNextDataToSend = none) := by
  unfold next MsgrcLoopbackSystem.getNextDataToSend
  rw [h.targets_eq, ← h.pos]
  by_cases hwait : targets.length > 0 ∧ s.targetNodesAvailable.toNat ≥ targets.length
  · obtain ⟨hsome, hall⟩ := hwait
    obtain ⟨nodeId, hnode⟩ : ∃ nodeId, targets[s.nodeToSendToPos.toNat]? = some nodeId :=
      ⟨_, List.getElem?_eq_getElem (h.pos_lt hsome hall).1⟩
    refine Or.inr ⟨nodeId, List.mem_of_getElem? hnode, ?_, hall, ?_⟩
    · rw [if_pos hall, hnode]
    rw [if_pos ⟨hsome, hall⟩, hnode]
    dsimp only
    by_cases hin : ExchangeManager.InRange nodeId
    · exact Or.inl ⟨hin, if_pos hin, h.lookAt hsome hall hnode⟩
    · have hle : nodeIdMaxNumNodes ≤ nodeId.toNat := Nat.le_of_not_lt hin
      have hlt := nodeId.toNat_lt
      exact Or.inr ⟨UInt16.toNat_inj.mp (Nat.le_antisymm (Nat.le_of_lt_succ hlt) hle), if_neg hin⟩
  · refine Or.inl ⟨?_, if_neg hwait⟩
    split
    · next hall =>
      have hnil : targets = [] := by
        by_contra hne
        exact hwait ⟨List.length_pos_iff.mpr hne, hall⟩
      rw [hnil, List.getElem?_nil]
    · rfl

theorem InTurn.step (h : s.InTurn targets) {a : Action} (hs : s.step a = some s') :
    s'.InTurn targets := by
  cases a with
  | told c =>
    obtain rfl := Option.some.inj hs
    exact h.tell c
  | getNextDataToSend =>
    rcases h.getNextDataToSend with ⟨-, hwait⟩ | ⟨nodeId, -, -, -, ⟨-, hlook, hturn⟩ | ⟨-, hpast⟩⟩
    · obtain rfl := Option.some.inj (hwait.symm.trans hs)
      exact ⟨h.targets_eq, h.pos, h.looked⟩
    · obtain rfl := Option.some.inj (hlook.symm.trans hs)
      exact hturn
    · cases hpast.symm.trans hs

/-- **The targets are looked at in turn**, whatever the system is told in between, and a
call reads past the end of a table exactly when the turn is that of a target `NODE_ID_INVALID`. -/
theorem looked_in_turn {sendBufferSize : Nat} {as : List Action}
    (h : Lts.exec step (new targets sendBufferSize) as = some s) :
    (∀ k, k < s.looked.length → s.looked[k]? = targets[k % targets.length]?) ∧
      (s.getNextDataToSend = none ↔ s.next targets = some nodeIdInvalid) := by
  have hturn : s.InTurn targets :=
    Lts.exec_invariant (fun _ _ _ hi hs => hi.step hs) (inTurn_new targets sendBufferSize) h
  refine ⟨hturn.looked, ?_⟩
  rcases hturn.getNextDataToSend with
    ⟨hnext, hwait⟩ | ⟨nodeId, -, hnext, -, ⟨hin, hlook, -⟩ | ⟨rfl, hpast⟩⟩
  · rw [hwait, hnext]
    exact iff_of_false nofun nofun
  · rw [hlook, hnext]
    refine iff_of_false nofun fun hinvalid => ?_
    obtain rfl := Option.some.inj hinvalid
    exact absurd hin (by decide)
  · rw [hpast, hnext]
    exact iff_of_true rfl rfl

/-- Two targets, of which the second leaves and comes back. -/
def exampleLooks : List Action :=
  [.getNextDataToSend, .told (.nodeDiscovered 2), .told (.nodeDiscovered 3), .getNextDataToSend,
    .told (.nodeDisconnected 3), .getNextDataToSend, .told (.nodeDiscovered 3),
    .getNextDataToSend, .getNextDataToSend]

theorem looked_in_turn_two : (∃ s, Lts.exec step (new [2, 3] 64) exampleLooks = some s ∧
      s.looked = [2, 3, 2] ∧ s.getNextDataToSend ≠ none) ∧
    ∃ s, Lts.exec step (new [2, 0xFFFF] 64)
        [.told (.nodeDiscovered 2), .told (.nodeDiscovered 3), .getNextDataToSend] = some s ∧
      s.looked = [2] ∧ s.getNextDataToSend = none := by
  constructor
  · have hmap : (Lts.exec step (new [2, 3] 64) exampleLooks).map
        (fun s => (s.looked, s.next [2, 3])) = some ([2, 3, 2], some 3) := by
      decide +kernel
    obtain ⟨s, hrun, hs⟩ := Option.map_eq_some_iff.mp hmap
    obtain ⟨hlooked, hnext⟩ := Prod.mk.inj hs
    refine ⟨s, hrun, hlooked, fun hnone => ?_⟩
    rw [(looked_in_turn hrun).2, hnext] at hnone
    exact absurd hnone (by decide)
  · have hmap : (Lts.exec step (new [2, 0xFFFF] 64)
        [.told (.nodeDiscovered 2), .told (.nodeDiscovered 3), .getNextDataToSend]).map
        (fun s => (s.looked, s.next [2, 0xFFFF])) = some ([2], some nodeIdInvalid) := by
      decide +kernel
    obtain ⟨s, hrun, hs⟩ := Option.map_eq_some_iff.mp hmap
    obtain ⟨hlooked, hnext⟩ := Prod.mk.inj hs
    exact ⟨s, hrun, hlooked, (looked_in_turn hrun).2.mpr hnext⟩

end MsgrcLoopbackSystem

/-! ## What the managers tell -/

/-- A call that the loopback system only logs. -/
def Quiet : Call → Prop
  | .nodeDiscovered _ | .nodeDisconnected _ => False
  | _ => True

/-- What one step of the managers tells the listeners: of a node that was
discovered, of one that was disconnected, or of nothing. -/
inductive Tells (m m' : ConnectionManager) : Prop
  | quiet (calls : List Call) (hcalls : m'.calls = m.calls ++ calls) (hquiet : ∀ c ∈ calls, Quiet c)
      (hinfo : m'.discoveryManager.nodeInfo = m.discoveryManager.nodeInfo)
  | discovered (n : NodeId) (entry : Con.Entry)
      (hcalls : m'.calls = m.calls ++ [.nodeDiscovered n]) (hrange : ExchangeManager.InRange n)
      (hfree : m.discoveryManager.nodeInfo n = none)
      (hinfo : m'.discoveryManager.nodeInfo =
        Function.update m.discoveryManager.nodeInfo n (some entry))
  | disconnected (n : NodeId) (calls : List Call)
      (hcalls : m'.calls = m.calls ++ calls ++ [.nodeDisconnected n])
      (hquiet : ∀ c ∈ calls, Quiet c) (hconnected : m.connections n ≠ none)
      (hinfo : m'.discoveryManager.nodeInfo = Function.update m.discoveryManager.nodeInfo n none)

section
variable {m m' m₁ : ConnectionManager} {env : Environment} {n : NodeId} {ownHostname : String}

theorem quiet_of_allocates (ha : ConnectionManager.Allocates env n m m') :
    ∃ calls, m'.calls = m.calls ++ calls ∧ (∀ c ∈ calls, Quiet c) ∧
      m'.discoveryManager = m.discoveryManager ∧ m'.listener = m.listener ∧
      m'.discoveryListener = m.discoveryListener := by
  cases ha with
  | kept hc => exact ⟨[], (List.append_nil _).symm, by simp, rfl, rfl, rfl⟩
  | created hc hid hqp =>
    refine ⟨[.createConnection n _], rfl, fun c hc => ?_, rfl, rfl, rfl⟩
    obtain rfl := List.mem_singleton.mp hc
    trivial

theorem quiet_of_finishedOrAnswered (m : ConnectionManager) (remote : ConnectionExchgData)
    (c : Con.Connection) (ipv4 : UInt32) :
    ∃ calls, (m.finishedOrAnswered remote c ipv4).calls = m.calls ++ calls ∧
      (∀ c ∈ calls, Quiet c) ∧
      (m.finishedOrAnswered remote c ipv4).discoveryManager = m.discoveryManager := by
  unfold ConnectionManager.finishedOrAnswered
  split
  · split
    · exact ⟨[], (List.append_nil _).symm, by simp, rfl⟩
    · refine ⟨_, rfl, fun c hc => ?_, rfl⟩
      rcases List.mem_cons.mp hc with rfl | hc
      · trivial
      · cases hlistener : m.listener with
        | false => simp [hlistener] at hc
        | true =>
          rw [hlistener] at hc
          obtain rfl := List.mem_singleton.mp hc
          trivial
  · split
    · exact ⟨[], (List.append_nil _).symm, by simp, rfl⟩
    · exact ⟨[], (List.append_nil _).symm, by simp, rfl⟩

theorem quiet_of_learn (m : ConnectionManager) (remote : ConnectionExchgData) :
    ∃ calls, (m.learn remote).calls = m.calls ++ calls ∧ (∀ c ∈ calls, Quiet c) ∧
      (m.learn remote).discoveryManager = m.discoveryManager := by
  unfold ConnectionManager.learn
  cases (m.connectionStates remote.header.nodeId).isConnectedToRemote with
  | true => exact ⟨[], (List.append_nil _).symm, by simp, rfl⟩
  | false =>
    refine ⟨[.connect remote.header.nodeId remote], rfl, fun c hc => ?_, rfl⟩
    obtain rfl := List.mem_singleton.mp hc
    trivial

/-- If the job is to store an entry it finds, the slot is one of the table, and free. -/
def StoresFree (m : ConnectionManager) : Job → Prop
  | .discovered ipv4 n =>
    ∀ found ∈ DiscoveryManager.takeEntry ipv4 m.discoveryManager.infoToGet, found ≠ none →
      ExchangeManager.InRange n ∧ m.discoveryManager.nodeInfo n = none
  | _ => True

/-- What a job tells, with both listeners set. -/
theorem tells_of_dispatched {job : Job} (hl : m.listener = true)
    (hd : m.discoveryListener = true) (hfree : StoresFree m job)
    (h : ConnectionManager.Dispatched env m job m') : Tells m m' := by
  cases h with
  | createDropped | connectDropped | discoveredUnknown | closeAgain =>
    exact .quiet [] (List.append_nil _).symm (by simp) rfl
  | @create n entry m₁ c hshutdown hinfo halloc hc =>
    rcases halloc with ⟨halloc, -⟩ | rfl
    · obtain ⟨calls, hcalls, hquiet, hinfo, -⟩ := quiet_of_allocates halloc
      exact .quiet calls hcalls hquiet (congrArg DiscoveryManager.nodeInfo hinfo)
    · exact .quiet [] (List.append_nil _).symm (by simp) rfl
  | @connect remote entry m₁ c hshutdown hinfo halloc hcreated hc =>
    obtain ⟨calls₁, hcalls₁, hquiet₁, hinfo₁, -⟩ := quiet_of_allocates halloc
    obtain ⟨calls₂, hcalls₂, hquiet₂, hinfo₂⟩ := quiet_of_learn m₁ remote
    obtain ⟨calls₃, hcalls₃, hquiet₃, hinfo₃⟩ :=
      quiet_of_finishedOrAnswered (m₁.learn remote) remote c entry.address
    refine .quiet (calls₁ ++ calls₂ ++ calls₃) ?_ (fun c hc => ?_) ?_
    · rw [hcalls₃, hcalls₂, hcalls₁, List.append_assoc, List.append_assoc, List.append_assoc]
    · rcases List.mem_append.mp hc with hc | hc
      · rcases List.mem_append.mp hc with hc | hc
        · exact hquiet₁ c hc
        · exact hquiet₂ c hc
      · exact hquiet₃ c hc
    · rw [hinfo₃, hinfo₂, hinfo₁]
  | @close n force shutdown c hc =>
    refine .disconnected n [.close n force, .nodeInvalidated n, .connectionClosed n] ?_ ?_
      (by rw [hc]; exact Option.some_ne_none c) rfl
    · simp [ConnectionManager.closed, hl, hd]
    · simp [Quiet]
  | discover hipv4s =>
    refine .quiet _ rfl (fun c hc => ?_) rfl
    obtain ⟨ipv4, -, rfl⟩ := List.mem_map.mp hc
    trivial
  | @discovered ipv4 n entry rest htake =>
    obtain ⟨hrange, hslot⟩ := hfree _ htake (Option.some_ne_none _)
    refine .discovered n entry ?_ hrange hslot rfl
    dsimp only
    rw [hd, if_pos rfl]

/-- A discovered job that is about to run overwrites no entry. -/
def FindsFree (m : ConnectionManager) : NodeAction → Prop
  | .act (.runJob _) =>
    match m.jobQueue with
    | .discovered ipv4 n :: _ =>
      ∀ found ∈ DiscoveryManager.takeEntry ipv4 m.discoveryManager.infoToGet, found ≠ none →
        m.discoveryManager.nodeInfo n = none
    | _ => True
  | _ => True

instance (m : ConnectionManager) (a : NodeAction) : Decidable (FindsFree m a) :=
  match a with
  | .act (.runJob _) =>
    match hq : m.jobQueue with
    | .discovered ipv4 n :: _ =>
      decidable_of_iff (∀ found ∈ DiscoveryManager.takeEntry ipv4 m.discoveryManager.infoToGet,
        found ≠ none → m.discoveryManager.nodeInfo n = none) (by simp only [FindsFree, hq])
    | [] | .createConnection _ :: _ | .connectConnection _ :: _ | .closeConnection _ _ _ :: _
    | .discover :: _ => isTrue (by simp only [FindsFree, hq])
  | .addNode _ | .act (.requestCreation _) | .act (.giveUpCreation _) | .act (.addJob _)
  | .act .shutdown => isTrue trivial

/-- What a step of the managers tells. -/
theorem tells_of_nodeStep {a : NodeAction} (hl : m.listener = true)
    (hd : m.discoveryListener = true) (hfree : FindsFree m a)
    (hs : nodeStep ownHostname m a = some m') : Tells m m' := by
  cases a with
  | addNode entry =>
    obtain rfl := Option.some.inj hs
    exact .quiet [] (List.append_nil _).symm (by simp)
      (DiscoveryManager.addNode_nodeInfo ownHostname entry)
  | act a =>
    simp only [ConnectionManager.nodeStep] at hs
    split at hs
    · next hindexes =>
      cases a with
      | requestCreation | giveUpCreation | addJob | shutdown =>
        obtain rfl := Option.some.inj hs
        exact .quiet [] (List.append_nil _).symm (by simp) rfl
      | runJob env =>
        obtain ⟨job, jobQueue, hq, hdispatched⟩ := ConnectionManager.step_runJob hs
        have hstores : StoresFree m job := by
          cases job with
          | discovered ipv4 n =>
            intro found hfound hne
            refine ⟨?_, ?_⟩
            · have hindex : n ∈ ExchangeManager.tableIndex m (.discovered ipv4 n) := by
                obtain ⟨found, rfl⟩ := Option.ne_none_iff_exists'.mp hne
                simp only [ExchangeManager.tableIndex, Option.mem_def.mp hfound,
                  Option.mem_some_iff]
              exact hindexes _ (by rw [hq]; rfl) n hindex
            · simp only [FindsFree, hq] at hfree
              exact hfree _ hfound hne
          | createConnection | connectConnection | closeConnection | discover => trivial
        cases tells_of_dispatched (m := { m with jobQueue }) hl hd hstores hdispatched with
        | quiet calls hcalls hquiet hinfo => exact .quiet calls hcalls hquiet hinfo
        | discovered n entry hcalls hrange hfree hinfo =>
          exact .discovered n entry hcalls hrange hfree hinfo
        | disconnected n calls hcalls hquiet hconnected hinfo =>
          exact .disconnected n calls hcalls hquiet hconnected hinfo
    · cases hs

/-- The listeners stay set. -/
theorem discoveryListener_of_dispatched {job : Job}
    (h : ConnectionManager.Dispatched env m job m') :
    m'.discoveryListener = m.discoveryListener := by
  cases h with
  | createDropped | connectDropped | discoveredUnknown | closeAgain | close | discover
  | discovered => rfl
  | @create n entry m₁ c hshutdown hinfo halloc hc =>
    rcases halloc with ⟨halloc, -⟩ | rfl
    · obtain ⟨-, -, -, -, -, hsame⟩ := quiet_of_allocates halloc
      exact hsame
    · rfl
  | @connect remote entry m₁ c hshutdown hinfo halloc hcreated hc =>
    obtain ⟨-, -, -, -, -, hsame⟩ := quiet_of_allocates halloc
    refine Eq.trans ?_ hsame
    unfold ConnectionManager.finishedOrAnswered
    split
    · split <;> rfl
    · split <;> rfl

theorem listeners_of_nodeStep {a : NodeAction} (hs : nodeStep ownHostname m a = some m') :
    m'.listener = m.listener ∧ m'.discoveryListener = m.discoveryListener := by
  cases a with
  | addNode entry =>
    obtain rfl := Option.some.inj hs
    exact ⟨rfl, rfl⟩
  | act a =>
    simp only [ConnectionManager.nodeStep] at hs
    split at hs
    · refine ⟨ConnectionManager.step_listener hs, ?_⟩
      cases a with
      | requestCreation | giveUpCreation | addJob | shutdown =>
        obtain rfl := Option.some.inj hs
        rfl
      | runJob env =>
        obtain ⟨job, jobQueue, -, hdispatched⟩ := ConnectionManager.step_runJob hs
        exact discoveryListener_of_dispatched (m := { m with jobQueue }) hdispatched
    · cases hs

end

/-! ## The system with its managers -/

/-- A process that runs the loopback system. -/
structure LoopbackNode where
  manager : ConnectionManager
  system : MsgrcLoopbackSystem

namespace LoopbackNode

inductive Action
  /-- a step of connection and discovery manager, and what the system is told of it -/
  | manager (a : NodeAction)
  | getNextDataToSend

/-- The system listens to both managers. -/
def new (p : ConnectionManager.Params) (ownHostname : String) (nodeConf : List Con.Entry)
    (targets : List NodeId) (sendBufferSize : Nat) : LoopbackNode where
  manager := .new { p with
    listener := true
    discoveryListener := true
    discoveryManager := .new ownHostname nodeConf }
  system := .new targets sendBufferSize

def step (ownHostname : String) (w : LoopbackNode) : Action → Option LoopbackNode
  | .manager a =>
    (nodeStep ownHostname w.manager a).map fun manager =>
      { manager
        system := (manager.calls.drop w.manager.calls.length).foldl MsgrcLoopbackSystem.tell
          w.system }
  | .getNextDataToSend => w.system.getNextDataToSend.map fun system => { w with system }

/-- No discovered job overwrites an entry. -/
def FindsFree (w : LoopbackNode) : Action → Prop
  | .manager a => Msgrc.FindsFree w.manager a
  | .getNextDataToSend => True

instance (w : LoopbackNode) (a : Action) : Decidable (w.FindsFree a) :=
  match a with
  | .manager a => inferInstanceAs (Decidable (Msgrc.FindsFree w.manager a))
  | .getNextDataToSend => isTrue trivial

/-- How many nodes are discovered. -/
def numDiscovered (nodeInfo : NodeId → Option Con.Entry) : Nat :=
  ∑ n, if (nodeInfo n).isSome then 1 else 0

theorem card_nodeId : Fintype.card NodeId = 2 ^ 16 := by
  rw [← FinEnum.card_eq_fintypeCard]
  rfl

/-- The table has one entry less than there are ids. -/
theorem numDiscovered_lt {nodeInfo : NodeId → Option Con.Entry}
    (hrange : ∀ n, nodeInfo n ≠ none → ExchangeManager.InRange n) :
    numDiscovered nodeInfo < 2 ^ 16 := by
  have hone : ∑ _n : NodeId, 1 = 2 ^ 16 := by
    rw [Finset.sum_const, Finset.card_univ, card_nodeId, smul_eq_mul, Nat.mul_one]
  rw [← hone]
  refine Finset.sum_lt_sum (fun n _ => ?_) ⟨nodeIdInvalid, Finset.mem_univ _, ?_⟩
  · split <;> omega
  · have hnone : nodeInfo nodeIdInvalid = none := by
      by_contra hne
      exact absurd (hrange _ hne) (Nat.lt_irrefl _)
    rw [hnone]
    exact Nat.zero_lt_one

/-- The number of discovered nodes when one slot is written. -/
theorem numDiscovered_update (nodeInfo : NodeId → Option Con.Entry) (n : NodeId)
    (v : Option Con.Entry) :
    numDiscovered (Function.update nodeInfo n v) + (if (nodeInfo n).isSome then 1 else 0) =
      numDiscovered nodeInfo + if v.isSome then 1 else 0 :=
  Sums.sum_update (fun v : Option Con.Entry => if v.isSome then 1 else 0) nodeInfo n v

/-- The system's flags and its counter are those of the discovery manager. -/
structure Mirrors (w : LoopbackNode) : Prop where
  known : w.manager.Known
  listener : w.manager.listener = true
  discoveryListener : w.manager.discoveryListener = true
  inRange : ∀ n, w.manager.discoveryManager.nodeInfo n ≠ none → ExchangeManager.InRange n
  available : ∀ n, w.system.availableTargetNodes n =
    (w.manager.discoveryManager.nodeInfo n).isSome
  count : w.system.targetNodesAvailable.toNat =
    numDiscovered w.manager.discoveryManager.nodeInfo

variable {w w' : LoopbackNode} {ownHostname : String}

theorem mirrors_new (p : ConnectionManager.Params) (ownHostname : String)
    (nodeConf : List Con.Entry) (targets : List NodeId) (sendBufferSize : Nat) :
    (new p ownHostname nodeConf targets sendBufferSize).Mirrors where
  known := ConnectionManager.known_new
    { p with listener := true, discoveryListener := true } nodeConf
  listener := rfl
  discoveryListener := rfl
  inRange _ hn := absurd rfl hn
  available _ := rfl
  count := (Finset.sum_eq_zero fun _ _ => rfl).symm

/-- Calls that are only logged change nothing. -/
theorem foldl_tell_quiet {calls : List Call} (h : ∀ c ∈ calls, Quiet c)
    (s : MsgrcLoopbackSystem) : calls.foldl MsgrcLoopbackSystem.tell s = s := by
  induction calls with
  | nil => rfl
  | cons c calls ih =>
    have hc : s.tell c = s := by
      have hquiet := h c List.mem_cons_self
      cases c with
      | nodeDiscovered | nodeDisconnected => exact absurd hquiet id
      | createConnection | connect | close | connectionOpened | nodeConnected | connectionClosed
      | nodeInvalidated | discoveryReq => rfl
    rw [List.foldl_cons, hc]
    exact ih fun c' hc' => h c' (List.mem_cons_of_mem c hc')

/-- One slot and its flag change together, and the counter with them. -/
theorem Mirrors.update (h : w.Mirrors) (hknown : w'.manager.Known)
    (hl : w'.manager.listener = true) (hd : w'.manager.discoveryListener = true) {n : NodeId}
    {v : Option Con.Entry} (hrange : v ≠ none → ExchangeManager.InRange n)
    (hinfo : w'.manager.discoveryManager.nodeInfo =
      Function.update w.manager.discoveryManager.nodeInfo n v)
    (hflags : w'.system.availableTargetNodes =
      Function.update w.system.availableTargetNodes n v.isSome)
    (hcount : w'.system.targetNodesAvailable.toNat =
      numDiscovered (Function.update w.manager.discoveryManager.nodeInfo n v)) : w'.Mirrors where
  known := hknown
  listener := hl
  discoveryListener := hd
  inRange k := by
    rw [hinfo]
    by_cases hk : k = n
    · subst hk
      rw [Function.update_self]
      exact hrange
    · rw [Function.update_of_ne hk]
      exact h.inRange k
  available k := by
    rw [hinfo, hflags]
    by_cases hk : k = n
    · subst hk
      rw [Function.update_self, Function.update_self]
    · rw [Function.update_of_ne hk, Function.update_of_ne hk]
      exact h.available k
  count := by rw [hcount, hinfo]

theorem Mirrors.manager (h : w.Mirrors) {a : NodeAction} {m : ConnectionManager}
    (hfree : Msgrc.FindsFree w.manager a) (hs : nodeStep ownHostname w.manager a = some m) :
    Mirrors
      { manager := m
        system := (m.calls.drop w.manager.calls.length).foldl MsgrcLoopbackSystem.tell
          w.system } := by
  have hknown : m.Known := h.known.nodeStep hs
  obtain ⟨hl, hd⟩ := listeners_of_nodeStep hs
  rw [h.listener] at hl
  rw [h.discoveryListener] at hd
  cases tells_of_nodeStep h.listener h.discoveryListener hfree hs with
  | quiet calls hcalls hquiet hinfo =>
    rw [hcalls, List.drop_left, foldl_tell_quiet hquiet]
    refine ⟨hknown, hl, hd, fun n => ?_, fun n => ?_, ?_⟩
    · rw [hinfo]
      exact h.inRange n
    · rw [hinfo]
      exact h.available n
    · rw [hinfo]
      exact h.count
  | discovered n entry hcalls hrange hslot hinfo =>
    rw [hcalls, List.drop_left, List.foldl_cons, List.foldl_nil]
    have hupdate := numDiscovered_update w.manager.discoveryManager.nodeInfo n (some entry)
    refine h.update hknown hl hd (fun _ => hrange) hinfo rfl ?_
    have hlt : numDiscovered (Function.update w.manager.discoveryManager.nodeInfo n (some entry)) <
        2 ^ 16 := by
      refine numDiscovered_lt fun k hk => ?_
      by_cases hkn : k = n
      · exact hkn ▸ hrange
      · rw [Function.update_of_ne hkn] at hk
        exact h.inRange k hk
    rw [hslot] at hupdate
    simp only [Option.isSome_none, Option.isSome_some, Bool.false_eq_true, if_false,
      if_true] at hupdate
    change (w.system.targetNodesAvailable + 1).toNat = _
    rw [UInt16.toNat_add, h.count]
    exact (Nat.mod_eq_of_lt (by simp; omega)).trans (by simp; omega)
  | disconnected n calls hcalls hquiet hconnected hinfo =>
    rw [hcalls, List.append_assoc, List.drop_left, List.foldl_append, foldl_tell_quiet hquiet,
      List.foldl_cons, List.foldl_nil]
    have hupdate := numDiscovered_update w.manager.discoveryManager.nodeInfo n none
    refine h.update hknown hl hd (fun hne => absurd rfl hne) hinfo rfl ?_
    have hsome : (w.manager.discoveryManager.nodeInfo n).isSome = true :=
      Option.isSome_iff_ne_none.mpr (h.known.discovered hconnected)
    rw [hsome] at hupdate
    simp only [Option.isSome_none, Bool.false_eq_true, if_false, if_true] at hupdate
    have hcount := h.count
    change (w.system.targetNodesAvailable - 1).toNat = _
    rw [UInt16.toNat_sub_of_le _ _ (by rw [UInt16.le_iff_toNat_le]; simp; omega)]
    simp only [UInt16.toNat_ofNat]
    omega

theorem foldl_tell_offers {targets : List NodeId} (calls : List Call) {s : MsgrcLoopbackSystem}
    (h : s.InTurn targets) :
    (calls.foldl MsgrcLoopbackSystem.tell s).InTurn targets ∧
      (calls.foldl MsgrcLoopbackSystem.tell s).sendBufferSize = s.sendBufferSize := by
  induction calls generalizing s with
  | nil => exact ⟨h, rfl⟩
  | cons c calls ih =>
    obtain ⟨hturn, hsize⟩ := ih (h.tell c)
    refine ⟨hturn, hsize.trans ?_⟩
    cases c <;> rfl

/-- What holds throughout a run in which no entry is overwritten. -/
structure Inv (targets : List NodeId) (sendBufferSize : Nat) (w : LoopbackNode) : Prop where
  mirrors : w.Mirrors
  inTurn : w.system.InTurn targets
  size : w.system.sendBufferSize = sendBufferSize

theorem Inv.step {targets : List NodeId} {sendBufferSize : Nat} {a : Action}
    (h : Inv targets sendBufferSize w) (hfree : w.FindsFree a)
    (hs : step ownHostname w a = some w') :
    Inv targets sendBufferSize w' := by
  cases a with
  | manager a =>
    obtain ⟨m, hm, rfl⟩ := Option.map_eq_some_iff.mp hs
    obtain ⟨hturn, hsize⟩ :=
      foldl_tell_offers (m.calls.drop w.manager.calls.length) h.inTurn
    exact ⟨h.mirrors.manager hfree hm, hturn, hsize.trans h.size⟩
  | getNextDataToSend =>
    obtain ⟨s, hlook, rfl⟩ := Option.map_eq_some_iff.mp hs
    obtain ⟨hknown, hl, hd, hinRange, havailable, hcount⟩ := h.mirrors
    have hturn := h.inTurn.step (a := .getNextDataToSend) hlook
    rcases h.inTurn.getNextDataToSend with
      ⟨-, hwait⟩ | ⟨n, -, -, -, ⟨-, hn, -⟩ | ⟨-, hpast⟩⟩
    · obtain rfl := Option.some.inj (hwait.symm.trans hlook)
      exact ⟨⟨hknown, hl, hd, hinRange, havailable, hcount⟩, hturn, h.size⟩
    · obtain rfl := Option.some.inj (hn.symm.trans hlook)
      exact ⟨⟨hknown, hl, hd, hinRange, havailable, hcount⟩, hturn, h.size⟩
    · cases hpast.symm.trans hlook

/-- **The flags of the system are those of the discovery manager**: a node is
available exactly when it is discovered, the counter counts the discovered
nodes, and an offer is the whole buffer for a node that is discovered, made when
as many nodes are discovered as there are targets. -/
theorem available_iff_discovered (p : ConnectionManager.Params) (nodeConf : List Con.Entry)
    {targets : List NodeId} {sendBufferSize : Nat} {as : List Action}
    (hrange : ∀ n ∈ targets, ExchangeManager.InRange n)
    (h : Lts.exec (step ownHostname) (new p ownHostname nodeConf targets sendBufferSize) as =
      some w)
    (hfree : Lts.Along (step ownHostname) FindsFree
      (new p ownHostname nodeConf targets sendBufferSize) as) :
    (∀ n, w.system.availableTargetNodes n = true ↔
      w.manager.discoveryManager.nodeInfo n ≠ none) ∧
    w.system.targetNodesAvailable.toNat = numDiscovered w.manager.discoveryManager.nodeInfo ∧
    ∃ w', step ownHostname w .getNextDataToSend = some w' ∧
      (w'.system.workPackage = MsgrcLoopbackSystem.noPackage ∨
        ∃ n ∈ targets, w.manager.discoveryManager.nodeInfo n ≠ none ∧
          targets.length ≤ numDiscovered w.manager.discoveryManager.nodeInfo ∧
          w'.system.workPackage = fullBufferPackage sendBufferSize n) := by
  have hinv : Inv targets sendBufferSize w :=
    Lts.exec_invariant_along (fun _ _ _ hi ha hs => hi.step ha hs)
      ⟨mirrors_new p ownHostname nodeConf targets sendBufferSize,
        MsgrcLoopbackSystem.inTurn_new targets sendBufferSize, rfl⟩ hfree h
  refine ⟨fun n => ?_, hinv.mirrors.count, ?_⟩
  · rw [hinv.mirrors.available, Option.isSome_iff_ne_none]
  rcases hinv.inTurn.getNextDataToSend with
    ⟨-, hwait⟩ | ⟨n, hn, -, hall, ⟨-, hlook, -⟩ | ⟨rfl, -⟩⟩
  · exact ⟨_, Option.map_eq_some_iff.mpr ⟨_, hwait, rfl⟩, Or.inl rfl⟩
  · refine ⟨_, Option.map_eq_some_iff.mpr ⟨_, hlook, rfl⟩, ?_⟩
    change (if w.system.availableTargetNodes n then fullBufferPackage w.system.sendBufferSize n
      else MsgrcLoopbackSystem.noPackage) = _ ∨ _
    cases havailable : w.system.availableTargetNodes n with
    | false => exact Or.inl rfl
    | true =>
      have hdiscovered := havailable
      rw [hinv.mirrors.available, Option.isSome_iff_ne_none] at hdiscovered
      refine Or.inr ⟨n, hn, hdiscovered, ?_, ?_⟩
      · rw [← hinv.mirrors.count]
        exact hall
      · rw [← hinv.size]
        exact if_pos havailable
  · exact absurd (hrange _ hn) (by decide)

/-- Node 2 is discovered, sent to, connected to, closed and discovered again. -/
def exampleRun : List Action :=
  [.manager (.act (.addJob (.discovered 0x0A000002 2))), .getNextDataToSend,
    .manager (.act (.runJob {})), .getNextDataToSend,
    .manager (.act (.requestCreation 2)), .manager (.act (.addJob (.createConnection 2))),
    .manager (.act (.runJob {})), .manager (.act (.addJob (.closeConnection 2 true true))),
    .manager (.act (.runJob {})), .manager (.act (.addJob (.discovered 0x0A000002 2))),
    .manager (.act (.runJob {}))]

theorem available_iff_discovered_example :
    ∃ w, Lts.exec (step "node1") (new ExchangeManager.exampleOwn "node1"
        [ExchangeManager.exampleNode] [2] 64) exampleRun = some w ∧
      w.system.targetNodesAvailable.toNat =
        numDiscovered w.manager.discoveryManager.nodeInfo := by
  have hrange : ∀ n ∈ ([2] : List NodeId), ExchangeManager.InRange n := by
    intro n hn
    rw [List.mem_singleton.mp hn]
    exact show 2 < 0xFFFF by omega
  have hfree : Lts.Along (step "node1") FindsFree (new ExchangeManager.exampleOwn "node1"
      [ExchangeManager.exampleNode] [2] 64) exampleRun := by decide +kernel
  have hmap : (Lts.exec (step "node1") (new ExchangeManager.exampleOwn "node1"
      [ExchangeManager.exampleNode] [2] 64) exampleRun).isSome = true := by decide +kernel
  obtain ⟨w, hrun⟩ := Option.isSome_iff_exists.mp hmap
  exact ⟨w, hrun, (available_iff_discovered ExchangeManager.exampleOwn
    [ExchangeManager.exampleNode] hrange hrun hfree).2.1⟩

end LoopbackNode

end Ibdxnet.Msgrc
