import Ibdxnet.Connection.DiscoveryBookkeeping
import Ibdxnet.Connection.HostileTraffic

/-!
# Connections only to discovered nodes

The connection manager and the discovery manager keep separate tables over the
node ids.  Between jobs

    m_connections[n] != nullptr  →  m_nodeInfo[n] != nullptr

whatever jobs are executed and whatever nodes are added.  So a close job puts an
entry back, never a null pointer, and the searches of `m_infoToGet` find none.
-/

namespace Ibdxnet.Con

namespace DiscoveryManager

variable {d : DiscoveryManager}

theorem addNode_nodeInfo (ownHostname : String) (entry : Entry) :
    (d.addNode ownHostname entry).nodeInfo = d.nodeInfo := by
  unfold addNode
  split <;> rfl

theorem addNode_listed (h : none ∉ d.infoToGet) (ownHostname : String) (entry : Entry) :
    none ∉ (d.addNode ownHostname entry).infoToGet := by
  unfold addNode
  split
  · simp [h]
  · exact h

/-- `__ExecuteDiscovery` dereferences entries only. -/
theorem executeDiscovery_ne_none (h : none ∉ d.infoToGet) : d.executeDiscovery ≠ none := by
  unfold executeDiscovery
  generalize d.infoToGet = l at h ⊢
  induction l with
  | nil => simp
  | cons entry l ih =>
    simp only [List.mem_cons, not_or] at h
    cases entry with
    | none => exact absurd rfl h.1
    | some entry =>
      obtain ⟨ipv4s, hrest⟩ := Option.ne_none_iff_exists'.mp (ih h.2)
      simp [hrest]

/-- The search of a discovered job dereferences entries only. -/
theorem discovered_ne_none (h : none ∉ d.infoToGet) (ipv4 : UInt32) (n : NodeId) :
    d.discovered ipv4 n ≠ none := by
  unfold discovered
  rcases takeEntry_spec ipv4 h with ⟨htake, -⟩ | ⟨entry, rest, htake, -⟩
  · simp [htake]
  · simp [htake]

end DiscoveryManager

namespace ConnectionManager

/-- A step of the threads of the manager, or a call of `AddNode`. -/
inductive NodeAction
  | addNode (entry : Entry)
  | act (a : Action)

/-- The tables are indexed in range only. -/
def nodeStep (ownHostname : String) (m : ConnectionManager) :
    NodeAction → Option ConnectionManager
  | .addNode entry =>
    some { m with discoveryManager := m.discoveryManager.addNode ownHostname entry }
  | .act a => if ExchangeManager.Indexes m a then step m a else none

variable {ownHostname : String} {m m' : ConnectionManager}

theorem Known.nodeStep (h : m.Known) {a : NodeAction}
    (hs : nodeStep ownHostname m a = some m') : m'.Known := by
  cases a with
  | addNode entry =>
    obtain rfl := Option.some.inj hs
    constructor
    · intro n hn
      rw [DiscoveryManager.addNode_nodeInfo]
      exact h.discovered hn
    · exact DiscoveryManager.addNode_listed h.listed ownHostname entry
  | act a =>
    simp only [ConnectionManager.nodeStep] at hs
    split at hs
    · exact h.step hs
    · cases hs

theorem known_new (p : Params) (nodeConf : List Entry) :
    (new { p with discoveryManager := .new ownHostname nodeConf }).Known :=
  ⟨fun hn => absurd rfl hn, by simp [new, DiscoveryManager.new]⟩

/-- A close job that finds a connection puts the entry of the node back. -/
theorem close_invalidates (h : m.Known) {env : Environment} {n : NodeId}
    {force shutdown : Bool} {jobQueue : List Job}
    (hq : m.jobQueue = .closeConnection n force shutdown :: jobQueue)
    (hc : m.connections n ≠ none) (hs : step m (.runJob env) = some m') :
    ∃ entry, m.discoveryManager.nodeInfo n = some entry ∧
      m'.discoveryManager =
        { infoToGet := m.discoveryManager.infoToGet ++ [some entry]
          nodeInfo := Function.update m.discoveryManager.nodeInfo n none } := by
  obtain ⟨entry, hentry⟩ := Option.ne_none_iff_exists'.mp (h.discovered hc)
  obtain ⟨job, jobQueue', hq', hd⟩ := step_runJob hs
  rw [hq, List.cons.injEq] at hq'
  obtain ⟨rfl, rfl⟩ := hq'
  refine ⟨entry, hentry, ?_⟩
  cases hd with
  | close hc' =>
    change m.discoveryManager.invalidate n = _
    rw [DiscoveryManager.invalidate, hentry]
  | closeAgain hnone => exact absurd hnone hc

/-- In every state between two jobs a node with a connection is discovered; a
close job then moves its entry, and no search meets a null pointer. -/
theorem connections_discovered (p : Params) (ownHostname : String) (nodeConf : List Entry)
    {as : List NodeAction} (h : Lts.exec (nodeStep ownHostname)
      (new { p with discoveryManager := .new ownHostname nodeConf }) as = some m) :
    (∀ n, m.connections n ≠ none → m.discoveryManager.nodeInfo n ≠ none) ∧
    none ∉ m.discoveryManager.infoToGet ∧
    (∀ env n force shutdown jobQueue m',
      m.jobQueue = .closeConnection n force shutdown :: jobQueue → m.connections n ≠ none →
      step m (.runJob env) = some m' →
      ∃ entry, m.discoveryManager.nodeInfo n = some entry ∧
        m'.discoveryManager =
          { infoToGet := m.discoveryManager.infoToGet ++ [some entry]
            nodeInfo := Function.update m.discoveryManager.nodeInfo n none }) ∧
    m.discoveryManager.executeDiscovery ≠ none ∧
    ∀ ipv4 n, m.discoveryManager.discovered ipv4 n ≠ none := by
  have hknown : m.Known := Lts.exec_invariant (I := Known)
    (fun _ _ _ h hs => h.nodeStep hs) (known_new p nodeConf) h
  refine ⟨fun n => hknown.discovered, hknown.listed, ?_,
    DiscoveryManager.executeDiscovery_ne_none hknown.listed,
    DiscoveryManager.discovered_ne_none hknown.listed⟩
  intro env n force shutdown jobQueue m' hq hc hs
  exact close_invalidates hknown hq hc hs

/-- Node 3 is added, node 2 is discovered, connected to, and closed. -/
def exampleNodeRun : List NodeAction :=
  [.addNode { hostname := "node3", address := 0x0A000003 },
    .act (.addJob (.discovered 0x0A000002 2)), .act (.runJob {}),
    .act (.requestCreation 2), .act (.addJob (.createConnection 2)), .act (.runJob {}),
    .act (.addJob (.closeConnection 2 true false))]

theorem connections_discovered_closing :
    ∃ m m' entry, Lts.exec (nodeStep "node1") (new { ExchangeManager.exampleOwn with
        discoveryManager := .new "node1" [ExchangeManager.exampleNode] }) exampleNodeRun = some m ∧
      m.discoveryManager.nodeInfo 2 = some entry ∧ step m (.runJob {}) = some m' ∧
      m'.discoveryManager.infoToGet =
        [some { hostname := "node3", address := 0x0A000003 }, some entry] := by
  have hrun : (Lts.exec (nodeStep "node1") (new { ExchangeManager.exampleOwn with
      discoveryManager := .new "node1" [ExchangeManager.exampleNode] }) exampleNodeRun).map
      (fun m => (m.jobQueue, (m.connections 2).isSome, (step m (.runJob {})).isSome,
        m.discoveryManager.infoToGet)) =
      some ([.closeConnection 2 true false], true, true,
        [some { hostname := "node3", address := 0x0A000003 }]) := by
    decide +kernel
  obtain ⟨m, hm, h⟩ := Option.map_eq_some_iff.mp hrun
  simp only [Prod.mk.injEq] at h
  obtain ⟨hq, hc, hstep, hlist⟩ := h
  obtain ⟨m', hs⟩ := Option.isSome_iff_exists.mp hstep
  obtain ⟨-, -, hclose, -⟩ :=
    connections_discovered ExchangeManager.exampleOwn "node1" [ExchangeManager.exampleNode] hm
  obtain ⟨entry, hentry, hm'⟩ :=
    hclose {} 2 true false [] m' hq (Option.isSome_iff_ne_none.mp hc) hs
  exact ⟨m, m', entry, hm, hentry, hs, by rw [hm', hlist]; rfl⟩

end ConnectionManager

end Ibdxnet.Con
