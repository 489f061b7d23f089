import Ibdxnet.Connection.ConnectionSteps

/-!
# What holds of every link

In every state a manager reaches, by any jobs about any nodes and any exchange
data, whatever it says: a link has a connection exactly when its state is
created or connected, only the two exchange flags are ever set, and none of
them without a connection (`Link.Holds`, `ConnectionManager.holds`).
-/

namespace Ibdxnet.Con

open Flags

namespace Link

structure Holds (l : Link) : Prop where
  proper : ConnectionState.Proper l.state.exchgFlags
  allocated : l.connection.isSome = true ↔ State.created.val ≤ l.state.state.val
  unallocated : l.connection = none → l.state.exchgFlags = 0 ∧ l.state.remoteExchgFlags = 0

variable {l : Link}

theorem holds_new : Link.Holds { state := {}, connection := none } where
  proper := ConnectionState.proper_zero
  allocated := by simp [State.val]
  unallocated _ := ⟨rfl, rfl⟩

theorem Holds.allocate (h : l.Holds) (connectionId : ConnectionId) (qp : RemoteConnectionData) :
    (l.allocate connectionId qp).Holds where
  proper := h.proper
  allocated := by simp [Link.allocate]
  unallocated hnone := by simp [Link.allocate] at hnone

theorem Holds.learn (h : l.Holds) {c : Connection} (hc : l.connection = some c)
    (remote : ConnectionExchgData) : (l.learn remote).Holds where
  proper := proper_learnFlags h.proper _
  allocated := by
    have hcreated : State.created.val ≤ l.state.state.val := h.allocated.mp (by simp [hc])
    simp only [Link.learn, hc, hcreated, iff_true]
    split <;> rfl
  unallocated hnone := by
    simp only [Link.learn, hc] at hnone
    split at hnone <;> cases hnone

theorem holds_closed (l : Link) : l.closed.Holds where
  proper := ConnectionState.proper_zero
  allocated := by simp [Link.closed, State.val]
  unallocated _ := ⟨rfl, rfl⟩

/-- The state of a link with a connection becomes connected. -/
theorem Holds.connected (h : l.Holds) {c : Connection} (hc : l.connection = some c)
    (available : Int) :
    Link.Holds
      { l with state := { l.state with state := .connected, available := available } } where
  proper := h.proper
  allocated := by simp [hc, State.val]
  unallocated hnone := by simp [hc] at hnone

theorem Holds.available (h : l.Holds) (available : Int) :
    Link.Holds { l with state := { l.state with available := available } } where
  proper := h.proper
  allocated := h.allocated
  unallocated := h.unallocated

theorem Holds.requestCreation (h : l.Holds) :
    Link.Holds { l with state := l.state.requestCreation } := by
  unfold ConnectionState.requestCreation
  split
  · next hstate =>
    have hnone : ¬ l.connection.isSome = true := by
      rw [h.allocated, hstate]
      decide
    refine ⟨h.proper, ?_, h.unallocated⟩
    simp [hnone, State.val]
  · exact h

theorem Holds.giveUpCreation (h : l.Holds) :
    Link.Holds { l with state := l.state.giveUpCreation } := by
  unfold ConnectionState.giveUpCreation
  split
  · next hstate =>
    have hnone : ¬ l.connection.isSome = true := by
      rw [h.allocated, hstate]
      decide
    refine ⟨h.proper, ?_, h.unallocated⟩
    simp [hnone, State.val]
  · exact h

end Link

namespace ConnectionManager

/-- Every link holds. -/
def Holds (m : ConnectionManager) : Prop := ∀ n, (m.link n).Holds

variable {m m' : ConnectionManager} {env : Environment}

theorem Holds.setLink (h : m.Holds) {n : NodeId} {l : Link} (hl : l.Holds) :
    (m.setLink n l).Holds := by
  intro k
  by_cases hk : k = n
  · subst hk
    rw [link_setLink_self]
    exact hl
  · rw [link_setLink_of_ne m n l hk]
    exact h k

theorem Holds.allocates (h : m.Holds) {n : NodeId} (ha : Allocates env n m m') : m'.Holds := by
  cases ha with
  | kept hc => exact h
  | created hc hid hqp => exact h.setLink ((h n).allocate _ _)

theorem Holds.learn (h : m.Holds) {remote : ConnectionExchgData} {c : Connection}
    (hc : m.connections remote.header.nodeId = some c) : (m.learn remote).Holds :=
  h.setLink (Link.Holds.learn (h _) hc remote)

theorem Holds.answered (h : m.Holds) (n : NodeId) (c : Connection) (ipv4 : UInt32) :
    (m.answered n c ipv4).Holds := h

theorem Holds.finishedOrAnswered (h : m.Holds) {remote : ConnectionExchgData} {c : Connection}
    (hc : m.connections remote.header.nodeId = some c) (ipv4 : UInt32) :
    (m.finishedOrAnswered remote c ipv4).Holds := by
  unfold ConnectionManager.finishedOrAnswered
  split
  · split
    · exact h.setLink (Link.Holds.connected (h _) hc _)
    · exact h.setLink (Link.Holds.connected (h _) hc _)
  · split
    · exact h.answered _ _ _
    · exact h

theorem Holds.dispatched (h : m.Holds) {job : Job} (hd : Dispatched env m job m') : m'.Holds := by
  cases hd with
  | createDropped | connectDropped | discoveredUnknown => exact h
  | discover | discovered => exact h
  | create hshutdown hinfo halloc hc =>
    rcases halloc with ⟨halloc, -⟩ | rfl
    · exact (h.allocates halloc).answered _ _ _
    · exact h.answered _ _ _
  | connect hshutdown hinfo halloc hcreated hc =>
    obtain ⟨c', hc'⟩ := halloc.exists_connection
    exact ((h.allocates halloc).learn hc').finishedOrAnswered hc _
  | close hc => exact h.setLink (Link.holds_closed _)
  | closeAgain hc =>
    rw [updateState_eq]
    exact h.setLink (Link.Holds.available (h _) _)

theorem Holds.step (h : m.Holds) {a : Action} (hs : step m a = some m') : m'.Holds := by
  cases a with
  | requestCreation n =>
    obtain rfl := Option.some.inj hs
    rw [updateState_eq]
    exact h.setLink (Link.Holds.requestCreation (h n))
  | giveUpCreation n =>
    obtain rfl := Option.some.inj hs
    rw [updateState_eq]
    exact h.setLink (Link.Holds.giveUpCreation (h n))
  | addJob job =>
    obtain rfl := Option.some.inj hs
    exact h
  | runJob env =>
    obtain ⟨job, jobQueue, -, hd⟩ := step_runJob hs
    have hq : ({ m with jobQueue } : ConnectionManager).Holds := h
    exact hq.dispatched hd
  | shutdown =>
    obtain rfl := Option.some.inj hs
    exact h

theorem holds_new (p : Params) : (new p).Holds := fun _ => Link.holds_new

theorem holds {p : Params} (h : Lts.Reachable step (new p) m) : m.Holds :=
  h.invariant (fun _ _ _ hi hs => hi.step hs) (holds_new p)

end ConnectionManager

end Ibdxnet.Con
