import Ibdxnet.Connection.LinkInvariant
import Mathlib.Algebra.Order.Group.Multiset

/-!
# The exchange between two nodes

What two connection managers do to one connection between them, without their
tables and job queues: each side has its link to the other one, and exchange
data is on its way to a side until that side handles it, lost and duplicated
as the network likes.

    create s     side s allocates if it has no connection, and sends
    connect s    side s takes one datagram: it learns, and opens, answers or
                 stays silent
    close s      side s closes its connection

The steps are labelled, so that runs without losses or without closes are runs
without these labels.
-/

namespace Ibdxnet.Con

open ConnectionManager (Params)

/-- The two nodes. -/
inductive Side
  | a
  | b
  deriving DecidableEq, Repr

namespace Side

def other : Side → Side
  | a => b
  | b => a

@[simp] theorem other_other (s : Side) : s.other.other = s := by cases s <;> rfl

@[simp] theorem other_ne (s : Side) : s.other ≠ s := by cases s <;> decide

@[simp] theorem ne_other (s : Side) : s ≠ s.other := by cases s <;> decide

theorem eq_or_eq_other (s t : Side) : t = s ∨ t = s.other := by
  cases s <;> cases t <;> decide

end Side

/-! ## Links -/

namespace Link

abbrev Completes (l : Link) : Prop :=
  l.state.connectionExchgComplete = true ∧ l.state.state = .created

abbrev NeedsAnswer (l : Link) (remote : ConnectionExchgData) : Prop :=
  l.state.connectionExchgComplete = false ∨ l.state.exchgFlags ≠ remote.header.exchgFlagsRemote

/-- The connection is published. -/
def opened (l : Link) : Link :=
  { l with state := { l.state with state := .connected, available := connectionAvailable } }

/-- The connection is found to be a zombie. -/
def killed (l : Link) : Link := { l with state := { l.state with state := .connected } }

/-- The exchange data a process with these parameters sends about a connection. -/
def exchgData (l : Link) (p : Params) (c : Connection) : ConnectionExchgData where
  header :=
    { nodeId := p.ownNodeId
      exchgFlags := l.state.exchgFlags
      exchgFlagsRemote := l.state.remoteExchgFlags
      lid := p.lid
      conManIdent := p.connectionCtxIdent }
  data := c.createConnectionExchangeData

/-- The link to node `n` after `__AllocateConnection`, with the calls made. -/
inductive Allocates (n : NodeId) (l : Link) : Link → List Call → Prop
  | kept {c : Connection} (hc : l.connection = some c) : Allocates n l l []
  | created {connectionId : ConnectionId} {qp : RemoteConnectionData}
      (hc : l.connection = none) :
      Allocates n l (l.allocate connectionId qp) [.createConnection n qp]

/-- The calls made when exchange data is handled. -/
def learnCalls (n : NodeId) (l : Link) (remote : ConnectionExchgData) : List Call :=
  if l.state.isConnectedToRemote then [] else [.connect n remote]

/-- The calls made when the connection is published. -/
def openedCalls (n : NodeId) (listener : Bool) : List Call :=
  .connectionOpened n :: if listener then [.nodeConnected n] else []

/-- The calls made when the connection is closed. -/
def closedCalls (n : NodeId) (force listener discoveryListener : Bool) : List Call :=
  .close n force :: (if discoveryListener then [Call.nodeInvalidated n] else []) ++
    .connectionClosed n :: if listener then [.nodeDisconnected n] else []

/-- The calls of the discovery. -/
def DiscoveryCall : Call → Prop
  | .discoveryReq _ => True
  | .nodeDiscovered _ => True
  | _ => False

/-- A write of another thread to `m_state`: it only asks for a connection, or
takes that back. -/
structure SameExchange (st st' : ConnectionState) : Prop where
  exchgFlags : st'.exchgFlags = st.exchgFlags
  remoteExchgFlags : st'.remoteExchgFlags = st.remoteExchgFlags
  available : st'.available = st.available
  state : st'.state = st.state ∨
    st'.state.val < State.created.val ∧ st.state.val < State.created.val

theorem Holds.sameExchange {l : Link} (h : l.Holds) {st : ConnectionState}
    (hst : SameExchange l.state st) : Link.Holds { l with state := st } where
  proper := hst.exchgFlags ▸ h.proper
  allocated := by
    rw [h.allocated]
    rcases hst.state with hsame | ⟨hlt, hlt'⟩
    · rw [hsame]
    · simp [Nat.not_le.mpr hlt, Nat.not_le.mpr hlt']
  unallocated hnone := by
    rw [hst.exchgFlags, hst.remoteExchgFlags]
    exact h.unallocated hnone

theorem sameExchange_requestCreation (st : ConnectionState) :
    SameExchange st st.requestCreation := by
  unfold ConnectionState.requestCreation
  split
  · next h => exact ⟨rfl, rfl, rfl, Or.inr ⟨by simp [State.val], by simp [h, State.val]⟩⟩
  · exact ⟨rfl, rfl, rfl, Or.inl rfl⟩

theorem sameExchange_giveUpCreation (st : ConnectionState) :
    SameExchange st st.giveUpCreation := by
  unfold ConnectionState.giveUpCreation
  split
  · next h => exact ⟨rfl, rfl, rfl, Or.inr ⟨by simp [State.val], by simp [h, State.val]⟩⟩
  · exact ⟨rfl, rfl, rfl, Or.inl rfl⟩

end Link

/-! ## The exchange -/

@[ext]
structure Exchange where
  link : Side → Link
  /-- exchange data on its way to a side, or queued there -/
  pending : Side → Multiset ConnectionExchgData
  calls : Side → List Call

namespace Exchange

/-- Nothing has happened yet. -/
def init : Exchange where
  link := fun _ => { state := {}, connection := none }
  pending := fun _ => 0
  calls := fun _ => []

/-- A step of side `s`: its link becomes `l`, `rest` is left of what was on its
way to it, it sends `sent` and makes `calls`. -/
def act (x : Exchange) (s : Side) (l : Link) (rest sent : Multiset ConnectionExchgData)
    (calls : List Call) : Exchange where
  link := Function.update x.link s l
  pending := Function.update (Function.update x.pending s rest) s.other
    (x.pending s.other + sent)
  calls := Function.update x.calls s (x.calls s ++ calls)

section
variable (x : Exchange) (s : Side) (l : Link) (rest sent : Multiset ConnectionExchgData)
  (calls : List Call)

@[simp] theorem act_link_self : (x.act s l rest sent calls).link s = l :=
  Function.update_self ..

@[simp] theorem act_link_other :
    (x.act s l rest sent calls).link s.other = x.link s.other :=
  Function.update_of_ne (Side.other_ne s) ..

@[simp] theorem act_pending_self : (x.act s l rest sent calls).pending s = rest := by
  simp [act]

@[simp] theorem act_pending_other :
    (x.act s l rest sent calls).pending s.other = x.pending s.other + sent :=
  Function.update_self ..

@[simp] theorem act_calls_self : (x.act s l rest sent calls).calls s = x.calls s ++ calls :=
  Function.update_self ..

@[simp] theorem act_calls_other : (x.act s l rest sent calls).calls s.other = x.calls s.other :=
  Function.update_of_ne (Side.other_ne s) ..

end

theorem act_self (x : Exchange) (s : Side) : x.act s (x.link s) (x.pending s) 0 [] = x := by
  simp [act]

/-- What a step is. -/
inductive Label
  | stutter
  | state (s : Side)
  | lose (s : Side)
  | duplicate (s : Side)
  | create (s : Side)
  | connect (s : Side) (remote : ConnectionExchgData)
  | kill (s : Side)
  | close (s : Side)
  deriving DecidableEq

/-- One step, of processes with parameters `p`. -/
inductive Step (p : Side → Params) : Label → Exchange → Exchange → Prop
  | stutter {x : Exchange} {s : Side} {calls : List Call}
      (hcalls : ∀ call ∈ calls, Link.DiscoveryCall call) :
      Step p .stutter x (x.act s (x.link s) (x.pending s) 0 calls)
  | state {x : Exchange} {s : Side} {st : ConnectionState}
      (hst : Link.SameExchange (x.link s).state st) :
      Step p (.state s) x (x.act s { x.link s with state := st } (x.pending s) 0 [])
  | lose {x : Exchange} {s : Side} {remote : ConnectionExchgData}
      {rest : Multiset ConnectionExchgData} (hpending : x.pending s = remote ::ₘ rest) :
      Step p (.lose s) x (x.act s (x.link s) rest 0 [])
  | duplicate {x : Exchange} {s : Side} {remote : ConnectionExchgData}
      (hpending : remote ∈ x.pending s) :
      Step p (.duplicate s) x (x.act s (x.link s) (remote ::ₘ x.pending s) 0 [])
  | create {x : Exchange} {s : Side} {l : Link} {calls : List Call} {c : Connection}
      (halloc : Link.Allocates (p s.other).ownNodeId (x.link s) l calls)
      (hc : l.connection = some c) :
      Step p (.create s) x (x.act s l (x.pending s) {l.exchgData (p s) c} calls)
  | opened {x : Exchange} {s : Side} {remote : ConnectionExchgData}
      {rest : Multiset ConnectionExchgData} {l : Link} {calls : List Call} {c : Connection}
      (hpending : x.pending s = remote ::ₘ rest)
      (halloc : Link.Allocates (p s.other).ownNodeId (x.link s) l calls)
      (hc : (l.learn remote).connection = some c) (hcomp : (l.learn remote).Completes)
      (hident : c.getRemoteConnectionManIdent = remote.header.conManIdent) :
      Step p (.connect s remote) x (x.act s (l.learn remote).opened rest 0
        (calls ++ l.learnCalls (p s.other).ownNodeId remote ++
          Link.openedCalls (p s.other).ownNodeId (p s).listener))
  | killed {x : Exchange} {s : Side} {remote : ConnectionExchgData}
      {rest : Multiset ConnectionExchgData} {l : Link} {calls : List Call} {c : Connection}
      (hpending : x.pending s = remote ::ₘ rest)
      (halloc : Link.Allocates (p s.other).ownNodeId (x.link s) l calls)
      (hc : (l.learn remote).connection = some c) (hcomp : (l.learn remote).Completes)
      (hident : c.getRemoteConnectionManIdent ≠ remote.header.conManIdent) :
      Step p (.kill s) x (x.act s (l.learn remote).killed rest 0
        (calls ++ l.learnCalls (p s.other).ownNodeId remote))
  | answered {x : Exchange} {s : Side} {remote : ConnectionExchgData}
      {rest : Multiset ConnectionExchgData} {l : Link} {calls : List Call} {c : Connection}
      (hpending : x.pending s = remote ::ₘ rest)
      (halloc : Link.Allocates (p s.other).ownNodeId (x.link s) l calls)
      (hc : (l.learn remote).connection = some c) (hcomp : ¬ (l.learn remote).Completes)
      (hneeds : (l.learn remote).NeedsAnswer remote) :
      Step p (.connect s remote) x (x.act s (l.learn remote) rest
        {(l.learn remote).exchgData (p s) c}
        (calls ++ l.learnCalls (p s.other).ownNodeId remote))
  | silent {x : Exchange} {s : Side} {remote : ConnectionExchgData}
      {rest : Multiset ConnectionExchgData} {l : Link} {calls : List Call}
      (hpending : x.pending s = remote ::ₘ rest)
      (halloc : Link.Allocates (p s.other).ownNodeId (x.link s) l calls)
      (hcomp : ¬ (l.learn remote).Completes)
      (hneeds : ¬ (l.learn remote).NeedsAnswer remote) :
      Step p (.connect s remote) x (x.act s (l.learn remote) rest 0
        (calls ++ l.learnCalls (p s.other).ownNodeId remote))
  | close {x : Exchange} {s : Side} {c : Connection} {force : Bool}
      (hc : (x.link s).connection = some c) :
      Step p (.close s) x (x.act s (x.link s).closed (x.pending s) 0
        (Link.closedCalls (p s.other).ownNodeId force (p s).listener (p s).discoveryListener))
  | closeAgain {x : Exchange} {s : Side} {available : Int}
      (hc : (x.link s).connection = none) :
      Step p (.close s) x (x.act s
        { x.link s with state := { (x.link s).state with available := available } }
        (x.pending s) 0 [])

/-! ## What a step is made of -/

theorem act_act (x : Exchange) (s : Side) (l₁ l₂ : Link)
    (rest₁ rest₂ sent₁ sent₂ : Multiset ConnectionExchgData) (calls₁ calls₂ : List Call) :
    (x.act s l₁ rest₁ sent₁ calls₁).act s l₂ rest₂ sent₂ calls₂ =
      x.act s l₂ rest₂ (sent₁ + sent₂) (calls₁ ++ calls₂) := by
  apply Exchange.ext
  · simp [act]
  · funext t
    rcases Side.eq_or_eq_other s t with rfl | rfl
    · simp
    · simp [add_assoc]
  · funext t
    rcases Side.eq_or_eq_other s t with rfl | rfl
    · simp
    · simp

/-- The parts of the steps that neither close nor kill a connection. -/
inductive Micro (p : Side → Params) : Exchange → Exchange → Prop
  | note {x : Exchange} {s : Side} {calls : List Call}
      (hcalls : ∀ call ∈ calls, Link.DiscoveryCall call) :
      Micro p x (x.act s (x.link s) (x.pending s) 0 calls)
  | state {x : Exchange} {s : Side} {st : ConnectionState}
      (hst : Link.SameExchange (x.link s).state st) :
      Micro p x (x.act s { x.link s with state := st } (x.pending s) 0 [])
  | net {x : Exchange} {s : Side} {rest : Multiset ConnectionExchgData}
      (hrest : ∀ remote ∈ rest, remote ∈ x.pending s) :
      Micro p x (x.act s (x.link s) rest 0 [])
  | allocate {x : Exchange} {s : Side} {connectionId : ConnectionId} {qp : RemoteConnectionData}
      (hc : (x.link s).connection = none) :
      Micro p x (x.act s ((x.link s).allocate connectionId qp) (x.pending s) 0
        [.createConnection (p s.other).ownNodeId qp])
  | learn {x : Exchange} {s : Side} {remote : ConnectionExchgData}
      {rest : Multiset ConnectionExchgData} {c : Connection}
      (hpending : x.pending s = remote ::ₘ rest) (hc : (x.link s).connection = some c) :
      Micro p x (x.act s ((x.link s).learn remote) rest 0
        ((x.link s).learnCalls (p s.other).ownNodeId remote))
  | opened {x : Exchange} {s : Side} {c : Connection}
      (hc : (x.link s).connection = some c) (hcomp : (x.link s).Completes) :
      Micro p x (x.act s (x.link s).opened (x.pending s) 0
        (Link.openedCalls (p s.other).ownNodeId (p s).listener))
  | send {x : Exchange} {s : Side} {c : Connection} (hc : (x.link s).connection = some c) :
      Micro p x (x.act s (x.link s) (x.pending s) {(x.link s).exchgData (p s) c} [])

open Relation (ReflTransGen)

variable {p : Side → Params} {x x' : Exchange}

theorem micro_allocates {s : Side} {l : Link} {calls : List Call}
    (h : Link.Allocates (p s.other).ownNodeId (x.link s) l calls) :
    ReflTransGen (Micro p) x (x.act s l (x.pending s) 0 calls) ∧ ∃ c, l.connection = some c := by
  cases h with
  | kept hc =>
    rw [act_self]
    exact ⟨.refl, _, hc⟩
  | created hc => exact ⟨.single (.allocate hc), _, rfl⟩

theorem micro_learn {s : Side} {remote : ConnectionExchgData}
    {rest : Multiset ConnectionExchgData} {l : Link} {calls : List Call}
    (hpending : x.pending s = remote ::ₘ rest)
    (h : Link.Allocates (p s.other).ownNodeId (x.link s) l calls) :
    ReflTransGen (Micro p) x (x.act s (l.learn remote) rest 0
      (calls ++ l.learnCalls (p s.other).ownNodeId remote)) := by
  obtain ⟨halloc, c, hc⟩ := micro_allocates h
  have hmicro : Micro p (x.act s l (x.pending s) 0 calls) _ :=
    .learn (s := s) (by simpa using hpending) (by simpa using hc)
  rw [act_link_self, act_act, add_zero] at hmicro
  exact halloc.tail hmicro

/-- Sending after other parts of a step of the same side. -/
theorem micro_send {s : Side} {l : Link} {rest : Multiset ConnectionExchgData}
    {calls : List Call} {c : Connection}
    (h : ReflTransGen (Micro p) x (x.act s l rest 0 calls)) (hc : l.connection = some c) :
    ReflTransGen (Micro p) x (x.act s l rest {l.exchgData (p s) c} calls) := by
  have hmicro : Micro p (x.act s l rest 0 calls) _ := .send (s := s) (by simpa using hc)
  rw [act_link_self, act_pending_self, act_act, zero_add, List.append_nil] at hmicro
  exact h.tail hmicro

/-- A step that neither closes nor kills is made of such parts. -/
theorem Step.micro {label : Label} (h : Step p label x x')
    (hkill : ∀ s, label ≠ .kill s) (hclose : ∀ s, label ≠ .close s) :
    ReflTransGen (Micro p) x x' := by
  cases h with
  | stutter hcalls => exact .single (.note hcalls)
  | state hst => exact .single (.state hst)
  | lose hpending =>
    refine .single (.net fun r hr => ?_)
    rw [hpending]
    exact Multiset.mem_cons_of_mem hr
  | duplicate hpending =>
    refine .single (.net fun r hr => ?_)
    rcases Multiset.mem_cons.mp hr with rfl | hr
    · exact hpending
    · exact hr
  | create halloc hc => exact micro_send (micro_allocates halloc).1 hc
  | @opened _ s remote rest l calls c hpending halloc hc hcomp hident =>
    have hopened : Micro p (x.act s (l.learn remote) rest 0
        (calls ++ l.learnCalls (p s.other).ownNodeId remote)) _ :=
      .opened (s := s) (by simpa using hc) (by simpa using hcomp)
    rw [act_link_self, act_pending_self, act_act, add_zero] at hopened
    exact (micro_learn hpending halloc).tail hopened
  | killed => exact absurd rfl (hkill _)
  | answered hpending halloc hc hcomp hneeds => exact micro_send (micro_learn hpending halloc) hc
  | silent hpending halloc hcomp hneeds => exact micro_learn hpending halloc
  | close | closeAgain => exact absurd rfl (hclose _)

end Exchange

end Ibdxnet.Con
