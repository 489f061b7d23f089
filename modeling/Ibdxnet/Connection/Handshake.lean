import Ibdxnet.Connection.Provenance

/-!
# Agreement of the handshake

Two nodes that never close their connection to each other.  However exchange
data is lost, duplicated, delayed and reordered, and whenever create jobs run:

    RemoteConnected of s     → the other side is connected with the data of the
                               connection s holds
    m_state = Connected of s → both sides are, and the exchange flags of both are
                               Completed                    (handshake_agreement)

Each side calls `Connect` at most once and becomes connected at most once, and
no exchange flag is ever lost.
-/

namespace Ibdxnet.Con

open Flags
open ConnectionManager (Params)

namespace Call

def isConnect : Call → Bool
  | connect _ _ => true
  | _ => false

def isConnectionOpened : Call → Bool
  | connectionOpened _ => true
  | _ => false

def isNodeConnected : Call → Bool
  | nodeConnected _ => true
  | _ => false

end Call

namespace Link

/-- No flag is lost, a connection stays the same and stays connected. -/
structure Grows (l l' : Link) : Prop where
  flags : Within l.state.exchgFlags l'.state.exchgFlags
  data : ∀ c, l.connection = some c → ∃ c', l'.connection = some c' ∧
    c'.createConnectionExchangeData = c.createConnectionExchangeData
  connected : l.state.state = .connected → l'.state.state = .connected

theorem Grows.refl (l : Link) : Grows l l where
  flags := Within.refl _
  data c hc := ⟨c, hc, rfl⟩
  connected := id

theorem Grows.trans {l₁ l₂ l₃ : Link} (h : Grows l₁ l₂) (h' : Grows l₂ l₃) : Grows l₁ l₃ where
  flags := h.flags.trans h'.flags
  data c hc := by
    obtain ⟨c₂, hc₂, hdata⟩ := h.data c hc
    obtain ⟨c₃, hc₃, hdata'⟩ := h'.data c₂ hc₂
    exact ⟨c₃, hc₃, hdata'.trans hdata⟩
  connected := h'.connected ∘ h.connected

/-- Another thread writes to the state. -/
theorem Grows.sameExchange {l : Link} {st : ConnectionState}
    (hst : SameExchange l.state st) : Grows l { l with state := st } where
  flags := hst.exchgFlags ▸ Within.refl _
  data c hc := ⟨c, hc, rfl⟩
  connected hstate := by
    rcases hst.state with hsame | ⟨-, hlt⟩
    · exact hsame.trans hstate
    · rw [hstate] at hlt
      exact absurd hlt (by decide)

theorem Grows.opened (l : Link) : Grows l l.opened where
  flags := Within.refl _
  data c hc := ⟨c, hc, rfl⟩
  connected _ := rfl

theorem Grows.learn {l : Link} {c : Connection} (hc : l.connection = some c)
    (remote : ConnectionExchgData) : Grows l (l.learn remote) where
  flags := within_learnFlags _ _
  data c' hc' := by
    rw [hc, Option.some.injEq] at hc'
    subst hc'
    refine ⟨_, learn_connection hc remote, ?_⟩
    split <;> rfl
  connected := id

theorem Grows.allocate {l : Link} (hl : l.Holds) (hc : l.connection = none)
    (connectionId : ConnectionId) (qp : RemoteConnectionData) :
    Grows l (l.allocate connectionId qp) where
  flags := Within.refl _
  data c hc' := by
    rw [hc] at hc'
    cases hc'
  connected hstate := by
    have hsome := hl.allocated.mpr (by rw [hstate]; decide)
    rw [hc] at hsome
    cases hsome

theorem countP_discovery {calls : List Call} (h : ∀ call ∈ calls, DiscoveryCall call) :
    calls.countP Call.isConnect = 0 ∧ calls.countP Call.isConnectionOpened = 0 ∧
      calls.countP Call.isNodeConnected = 0 := by
  have hnone : ∀ call ∈ calls, ¬ call.isConnect = true ∧ ¬ call.isConnectionOpened = true ∧
      ¬ call.isNodeConnected = true := by
    intro call hcall
    have hdiscovery := h call hcall
    cases call with
    | nodeDiscovered | discoveryReq => exact ⟨nofun, nofun, nofun⟩
    | _ => cases hdiscovery
  refine ⟨List.countP_eq_zero.mpr ?_, List.countP_eq_zero.mpr ?_, List.countP_eq_zero.mpr ?_⟩
  · exact fun call hcall => (hnone call hcall).1
  · exact fun call hcall => (hnone call hcall).2.1
  · exact fun call hcall => (hnone call hcall).2.2

/-- How often a side has connected and become connected. -/
structure Counted (l : Link) (calls : List Call) : Prop where
  unconnected : ¬ Within exchgFlagConnectedToRemote l.state.exchgFlags →
    calls.countP Call.isConnect = 0
  connects : calls.countP Call.isConnect ≤ 1
  unopened : l.state.state ≠ .connected → calls.countP Call.isConnectionOpened = 0
  opens : calls.countP Call.isConnectionOpened ≤ 1
  nodeConnected : calls.countP Call.isNodeConnected ≤ calls.countP Call.isConnectionOpened

variable {l l' : Link} {calls new : List Call}

theorem Counted.append (h : Counted l calls)
    (hgrows : Within l.state.exchgFlags l'.state.exchgFlags)
    (hstate : l'.state.state ≠ .connected → l.state.state ≠ .connected)
    (hnew : new.countP Call.isConnect = 0 ∧ new.countP Call.isConnectionOpened = 0 ∧
      new.countP Call.isNodeConnected = 0) : Counted l' (calls ++ new) where
  unconnected hset := by
    rw [List.countP_append, hnew.1, h.unconnected fun h' => hset (h'.trans hgrows)]
  connects := by
    rw [List.countP_append, hnew.1]
    exact h.connects
  unopened hst := by
    rw [List.countP_append, hnew.2.1, h.unopened (hstate hst)]
  opens := by
    rw [List.countP_append, hnew.2.1]
    exact h.opens
  nodeConnected := by
    rw [List.countP_append, List.countP_append, hnew.2.1, hnew.2.2]
    exact h.nodeConnected

theorem Counted.learn (h : Counted l calls) (n : NodeId) (remote : ConnectionExchgData) :
    Counted (l.learn remote) (calls ++ l.learnCalls n remote) := by
  cases hset : l.state.isConnectedToRemote with
  | true =>
    have hcalls : l.learnCalls n remote = [] := by simp [learnCalls, hset]
    rw [hcalls]
    exact h.append (within_learnFlags _ _) id ⟨rfl, rfl, rfl⟩
  | false =>
    have hcalls : l.learnCalls n remote = [.connect n remote] := by simp [learnCalls, hset]
    have hzero : calls.countP Call.isConnect = 0 := h.unconnected fun h' => by
      rw [← ConnectionState.isConnectedToRemote_iff, hset] at h'
      cases h'
    have hlearned : Within exchgFlagConnectedToRemote (l.learn remote).state.exchgFlags :=
      connectedToRemote_within_learnFlags _ _
    rw [hcalls]
    refine ⟨fun hnot => absurd hlearned hnot, ?_, fun hst => ?_, ?_, ?_⟩
    · simp [List.countP_append, hzero, Call.isConnect]
    · simpa [List.countP_append, Call.isConnectionOpened] using h.unopened hst
    · simpa [List.countP_append, Call.isConnectionOpened] using h.opens
    · simpa [List.countP_append, Call.isConnectionOpened, Call.isNodeConnected] using
        h.nodeConnected

theorem Counted.opened (h : Counted l calls) (hcomp : l.Completes) (n : NodeId)
    (listener : Bool) : Counted l.opened (calls ++ openedCalls n listener) := by
  have hzero : calls.countP Call.isConnectionOpened = 0 :=
    h.unopened (by rw [hcomp.2]; decide)
  have hnone : calls.countP Call.isNodeConnected = 0 := by
    have := h.nodeConnected
    omega
  have hconnect : (openedCalls n listener).countP Call.isConnect = 0 := by
    cases listener <;> rfl
  have hopened : (openedCalls n listener).countP Call.isConnectionOpened = 1 := by
    cases listener <;> rfl
  have hnode : (openedCalls n listener).countP Call.isNodeConnected ≤ 1 := by
    cases listener <;> simp [openedCalls, Call.isNodeConnected]
  refine ⟨fun hset => ?_, ?_, fun hst => absurd rfl hst, ?_, ?_⟩
  · rw [List.countP_append, hconnect, h.unconnected hset]
  · rw [List.countP_append, hconnect]
    exact h.connects
  · rw [List.countP_append, hzero, hopened]
  · rw [List.countP_append, List.countP_append, hzero, hnone, hopened]
    omega

end Link

namespace Exchange

variable {p : Side → Params} {x x' : Exchange} {s : Side}

variable (p) in
/-- Side `s` holds a connection that is connected with the data of the connection
the other side holds, and has called `Connect` with it. -/
def ConnectedWith (x : Exchange) (s : Side) : Prop :=
  ∃ c c' remote, (x.link s).connection = some c ∧ (x.link s.other).connection = some c' ∧
    c.remoteConnectionData = c'.createConnectionExchangeData ∧
    Call.connect (p s.other).ownNodeId remote ∈ x.calls s ∧
    remote.data = c'.createConnectionExchangeData

variable (p) in
structure Agreement (x : Exchange) (s : Side) : Prop where
  /-- what `s` has sent -/
  sent : ∀ remote ∈ x.pending s.other, ∃ c, (x.link s).connection = some c ∧
    remote.data = c.createConnectionExchangeData ∧
    Within remote.header.exchgFlags (x.link s).state.exchgFlags
  remote : Within (x.link s).state.remoteExchgFlags (x.link s.other).state.exchgFlags
  connected : Within exchgFlagConnectedToRemote (x.link s).state.exchgFlags →
    x.ConnectedWith p s
  remoteConnected : Within exchgFlagRemoteConnected (x.link s).state.exchgFlags →
    Within exchgFlagConnectedToRemote (x.link s.other).state.exchgFlags
  completed : (x.link s).state.state = .connected →
    (x.link s.other).state.exchgFlags = exchgFlagCompleted ∧
      (x.link s).state.available = connectionAvailable
  counted : Link.Counted (x.link s) (x.calls s)

theorem agreement_init (s : Side) : Agreement p init s where
  sent := by simp [init]
  remote := zero_within _
  connected h := absurd h ConnectionState.not_connectedToRemote_within_zero
  remoteConnected h := absurd h ConnectionState.not_remoteConnected_within_zero
  completed h := by cases h
  counted := ⟨fun _ => rfl, by simp [init], fun _ => rfl, by simp [init], by simp [init]⟩

section
variable {l : Link} {rest sent : Multiset ConnectionExchgData} {calls : List Call}

/-- A step of `s` keeps the agreement of the other side. -/
theorem Agreement.act_other (h : Agreement p x s.other) (hgrows : Link.Grows (x.link s) l)
    (hproper : ConnectionState.Proper l.state.exchgFlags)
    (hrest : ∀ remote ∈ rest, remote ∈ x.pending s) :
    Agreement p (x.act s l rest sent calls) s.other := by
  obtain ⟨hsent, hremote, hconnected, hremoteConnected, hcompleted, hcounted⟩ := h
  unfold ConnectedWith at hconnected
  simp only [Side.other_other] at hsent hremote hconnected hremoteConnected hcompleted
  refine ⟨?_, ?_, ?_, ?_, ?_, ?_⟩
  · simpa using fun remote hr => hsent remote (hrest remote hr)
  · simpa using hremote.trans hgrows.flags
  · intro hset
    rw [act_link_other] at hset
    obtain ⟨c, c', remote, hc, hc', hdata, hmem, hremote⟩ := hconnected hset
    obtain ⟨d, hd, hsame⟩ := hgrows.data c' hc'
    refine ⟨c, d, remote, ?_, ?_, ?_, ?_, ?_⟩
    · simpa using hc
    · simpa using hd
    · rw [hdata, hsame]
    · simpa using hmem
    · rw [hremote, hsame]
  · intro hset
    rw [act_link_other] at hset
    simpa using (hremoteConnected hset).trans hgrows.flags
  · intro hstate
    rw [act_link_other] at hstate
    obtain ⟨hflags, havailable⟩ := hcompleted hstate
    have hall : l.state.exchgFlags = exchgFlagCompleted :=
      hproper.antisymm (hflags ▸ hgrows.flags)
    simpa using ⟨hall, havailable⟩
  · simpa using hcounted

/-- What a step of `s` has to keep on its own side. -/
theorem Agreement.act_self (h : Agreement p x s) (hgrows : Link.Grows (x.link s) l)
    (hsent : ∀ remote ∈ sent, ∃ c, l.connection = some c ∧
      remote.data = c.createConnectionExchangeData ∧
      Within remote.header.exchgFlags l.state.exchgFlags)
    (hremote : Within l.state.remoteExchgFlags (x.link s.other).state.exchgFlags)
    (hconnected : Within exchgFlagConnectedToRemote l.state.exchgFlags →
      (x.act s l rest sent calls).ConnectedWith p s)
    (hremoteConnected : Within exchgFlagRemoteConnected l.state.exchgFlags →
      Within exchgFlagConnectedToRemote (x.link s.other).state.exchgFlags)
    (hcompleted : l.state.state = .connected →
      (x.link s.other).state.exchgFlags = exchgFlagCompleted ∧
        l.state.available = connectionAvailable)
    (hcounted : Link.Counted l (x.calls s ++ calls)) :
    Agreement p (x.act s l rest sent calls) s := by
  refine ⟨fun remote hr => ?_, ?_, ?_, ?_, ?_, ?_⟩
  · rw [act_pending_other] at hr
    rw [act_link_self]
    rcases Multiset.mem_add.mp hr with hr | hr
    · obtain ⟨c, hc, hdata, hflags⟩ := h.sent remote hr
      obtain ⟨c', hc', hsame⟩ := hgrows.data c hc
      exact ⟨c', hc', hdata.trans hsame.symm, hflags.trans hgrows.flags⟩
    · exact hsent remote hr
  · simpa using hremote
  · simpa using hconnected
  · simpa using hremoteConnected
  · simpa using hcompleted
  · simpa using hcounted

theorem ConnectedWith.act (h : x.ConnectedWith p s) (hl : l.connection = (x.link s).connection) :
    (x.act s l rest sent calls).ConnectedWith p s := by
  obtain ⟨c, c', remote, hc, hc', hdata, hmem, hremote⟩ := h
  refine ⟨c, c', remote, ?_, ?_, hdata, mem_calls_act hmem, hremote⟩
  · rw [act_link_self, hl, hc]
  · rw [act_link_other, hc']

/-- A step of `s` that changes at most the available number and how far the
connection is, and sends what it has. -/
theorem Agreement.act_same (h : Agreement p x s) (hgrows : Link.Grows (x.link s) l)
    (hflags : l.state.exchgFlags = (x.link s).state.exchgFlags)
    (hremoteFlags : l.state.remoteExchgFlags = (x.link s).state.remoteExchgFlags)
    (hconnection : l.connection = (x.link s).connection)
    (hsent : ∀ remote ∈ sent, ∃ c, l.connection = some c ∧
      remote.data = c.createConnectionExchangeData ∧
      Within remote.header.exchgFlags l.state.exchgFlags)
    (hcompleted : l.state.state = .connected →
      (x.link s.other).state.exchgFlags = exchgFlagCompleted ∧
        l.state.available = connectionAvailable)
    (hcounted : Link.Counted l (x.calls s ++ calls)) :
    Agreement p (x.act s l rest sent calls) s := by
  refine h.act_self hgrows hsent ?_ ?_ ?_ hcompleted hcounted
  · rw [hremoteFlags]
    exact h.remote
  · rw [hflags]
    exact fun hset => (h.connected hset).act hconnection
  · rw [hflags]
    exact h.remoteConnected

end

/-- Writes of other threads, calls of the discovery and what the network does. -/
theorem Agreement.act_state (h : Agreement p x s) {st : ConnectionState}
    (hst : Link.SameExchange (x.link s).state st) {rest : Multiset ConnectionExchgData}
    {calls : List Call} (hcalls : ∀ call ∈ calls, Link.DiscoveryCall call) :
    Agreement p (x.act s { x.link s with state := st } rest 0 calls) s := by
  have hconnected : st.state = .connected → (x.link s).state.state = .connected := by
    intro hstate
    rcases hst.state with hsame | ⟨hlt, -⟩
    · exact hsame ▸ hstate
    · rw [hstate] at hlt
      exact absurd hlt (by decide)
  refine h.act_same (.sameExchange hst) hst.exchgFlags hst.remoteExchgFlags rfl (by simp) ?_ ?_
  · intro hstate
    rw [hst.available]
    exact h.completed (hconnected hstate)
  · exact h.counted.append (hst.exchgFlags ▸ .refl _) (mt (Link.Grows.sameExchange hst).connected)
      (Link.countP_discovery hcalls)

theorem Agreement.act_learn (h : ∀ t, Agreement p x t) {remote : ConnectionExchgData}
    {rest : Multiset ConnectionExchgData} {c : Connection} (hpending : remote ∈ x.pending s)
    (hc : (x.link s).connection = some c) :
    Agreement p (x.act s ((x.link s).learn remote) rest 0
      ((x.link s).learnCalls (p s.other).ownNodeId remote)) s := by
  have hsent := (h s.other).sent
  rw [Side.other_other] at hsent
  obtain ⟨c', hc', hdata, hflags⟩ := hsent remote hpending
  have hlearn := Link.learn_connection hc remote
  refine (h s).act_self (.learn hc remote) (by simp) hflags ?_ ?_ (h s).completed
    ((h s).counted.learn _ _)
  · intro _
    cases hset : (x.link s).state.isConnectedToRemote with
    | true =>
      refine ((h s).connected (ConnectionState.isConnectedToRemote_iff.mp hset)).act ?_
      rw [hlearn, if_pos hset, hc]
    | false =>
      rw [if_neg (by simp [hset])] at hlearn
      refine ⟨c.connect remote, c', remote, by rw [act_link_self, hlearn],
        by rw [act_link_other, hc'], hdata, ?_, hdata⟩
      simp [Link.learnCalls, hset]
  · intro hr
    rcases Link.remoteConnected_within_learnFlags_iff.mp hr with hr | hr
    · exact (h s).remoteConnected hr
    · exact hr.trans hflags

theorem Agreement.act_opened (h : Agreement p x s) (hholds : (x.link s.other).Holds)
    (hcomp : (x.link s).Completes) (n : NodeId) (listener : Bool) :
    Agreement p (x.act s (x.link s).opened (x.pending s) 0 (Link.openedCalls n listener)) s := by
  refine h.act_same (.opened _) rfl rfl rfl (by simp) (fun _ => ⟨?_, rfl⟩)
    (h.counted.opened hcomp n listener)
  have hremote := h.remote
  rw [(ConnectionState.connectionExchgComplete_iff.mp hcomp.1).2] at hremote
  exact hholds.proper.antisymm hremote

/-- **Every part of a step keeps the agreement.** -/
theorem Agreement.micro (hprov : ∀ t, Provenance p x t) (h : ∀ t, Agreement p x t)
    (hm : Micro p x x') : ∀ t, Agreement p x' t := by
  have hholds : ∀ t, (x.link t).Holds := fun t => (hprov t).holds
  intro t
  cases hm with
  | @note s calls hcalls =>
    rcases Side.eq_or_eq_other s t with rfl | rfl
    · exact (h t).act_state (sameExchange_refl _) hcalls
    · exact (h s.other).act_other (.refl _) (hholds s).proper fun _ => id
  | @state s st hst =>
    rcases Side.eq_or_eq_other s t with rfl | rfl
    · exact (h t).act_state hst (by simp)
    · exact (h s.other).act_other (.sameExchange hst)
        ((hholds s).sameExchange hst).proper fun _ => id
  | @net s rest hrest =>
    rcases Side.eq_or_eq_other s t with rfl | rfl
    · exact (h t).act_state (sameExchange_refl _) (by simp)
    · exact (h s.other).act_other (.refl _) (hholds s).proper hrest
  | @allocate s connectionId qp hc =>
    have hgrows := Link.Grows.allocate (hholds s) hc connectionId qp
    rcases Side.eq_or_eq_other s t with rfl | rfl
    · obtain ⟨hzero, hzero'⟩ := (hholds t).unallocated hc
      refine (h t).act_self hgrows (by simp) (h t).remote ?_ (h t).remoteConnected ?_ ?_
      · intro hset
        rw [Link.allocate, hzero] at hset
        exact absurd hset ConnectionState.not_connectedToRemote_within_zero
      · intro hstate
        cases hstate
      · exact (h t).counted.append hgrows.flags (mt hgrows.connected) ⟨rfl, rfl, rfl⟩
    · exact (h s.other).act_other hgrows ((hholds s).allocate connectionId qp).proper fun _ => id
  | @learn s remote rest c hpending hc =>
    rcases Side.eq_or_eq_other s t with rfl | rfl
    · exact act_learn h (hpending ▸ Multiset.mem_cons_self _ _) hc
    · exact (h s.other).act_other (.learn hc remote) ((hholds s).learn hc remote).proper
        fun r hr => hpending ▸ Multiset.mem_cons_of_mem hr
  | @opened s c hc hcomp =>
    rcases Side.eq_or_eq_other s t with rfl | rfl
    · exact (h t).act_opened (hholds _) hcomp _ _
    · exact (h s.other).act_other (.opened _) (hholds s).proper fun _ => id
  | @send s c hc =>
    rcases Side.eq_or_eq_other s t with rfl | rfl
    · refine (h t).act_same (.refl _) rfl rfl rfl ?_ (h t).completed ?_
      · intro remote hremote
        rw [Multiset.mem_singleton] at hremote
        subst hremote
        exact ⟨c, hc, rfl, .refl _⟩
      · rw [List.append_nil]
        exact (h t).counted
    · exact (h s.other).act_other (.refl _) (hholds s).proper fun _ => id

theorem Micro.grows (hprov : ∀ t, Provenance p x t) (hm : Micro p x x') (t : Side) :
    Link.Grows (x.link t) (x'.link t) := by
  have hact : ∀ {s : Side} {l : Link} {rest sent : Multiset ConnectionExchgData}
      {calls : List Call}, Link.Grows (x.link s) l →
      Link.Grows (x.link t) ((x.act s l rest sent calls).link t) := by
    intro s l rest sent calls hl
    rcases Side.eq_or_eq_other s t with rfl | rfl
    · rwa [act_link_self]
    · rw [act_link_other]
      exact .refl _
  cases hm with
  | note | net | send => exact hact (.refl _)
  | state hst => exact hact (.sameExchange hst)
  | allocate hc => exact hact (.allocate (hprov _).holds hc _ _)
  | learn hpending hc => exact hact (.learn hc _)
  | opened => exact hact (.opened _)

theorem Agreement.micros (hprov : ∀ t, Provenance p x t) (h : ∀ t, Agreement p x t)
    (hm : Relation.ReflTransGen (Micro p) x x') :
    (∀ t, Agreement p x' t) ∧ ∀ t, Link.Grows (x.link t) (x'.link t) := by
  induction hm with
  | refl => exact ⟨h, fun t => .refl _⟩
  | tail hms hm ih =>
    have hprov' := Provenance.micros hprov hms
    exact ⟨Agreement.micro hprov' ih.1 hm, fun t => (ih.2 t).trans (hm.grows hprov' t)⟩

end Exchange

namespace Pair

variable {p : Side → Params} {w w' : Pair} {a : Action}

variable (p) in
/-- What holds in every state a run without closes reaches. -/
structure Unclosed (w : Pair) : Prop where
  addressed : Addressed p w
  provenance : ∀ s, (exchange p w).Provenance p s
  agreement : ∀ s, (exchange p w).Agreement p s
  noClose : ∀ s, w.NoClose s

theorem unclosed_init : Unclosed p (init p) where
  addressed := addressed_init
  provenance s := exchange_init (p := p) ▸ Exchange.provenance_init s
  agreement s := exchange_init (p := p) ▸ Exchange.agreement_init s
  noClose s := by simp [NoClose, init, ConnectionManager.new]

/-- Without a close job there is no step that closes. -/
theorem Labelled.not_close {label : Exchange.Label} {s : Side} (hno : w.NoClose s)
    (h : Labelled (p := p) w a label) : label ≠ .close s := by
  rintro rfl
  cases a with
  | runJob t env =>
    obtain ⟨job, jobQueue, hq, hlabel⟩ := h
    cases job with
    | closeConnection =>
      obtain rfl : s = t := Exchange.Label.close.inj hlabel
      cases hno _ (hq ▸ List.mem_cons_self)
    | createConnection => simp [Job.Labelled] at hlabel
    | connectConnection => simp [Job.Labelled] at hlabel
    | discover => cases hlabel
    | discovered => cases hlabel
  | _ => cases h

theorem Unclosed.step (hw : Unclosed p w) (ha : ∀ s, ¬ a.Closes s)
    (h : Pair.step p w a = some w') :
    Unclosed p w' ∧
      ∀ s, Link.Grows ((exchange p w).link s) ((exchange p w').link s) := by
  obtain ⟨hw', label, hx, hlabel⟩ := step_exchange hw.addressed h
  have hkill : ∀ s, label ≠ .kill s := by
    rintro s rfl
    exact Exchange.Provenance.not_kill hw.provenance hx
  have hmicro := hx.micro hkill fun s => hlabel.not_close (hw.noClose s)
  obtain ⟨hagree, hgrows⟩ := Exchange.Agreement.micros hw.provenance hw.agreement hmicro
  exact ⟨⟨hw', Exchange.Provenance.step hw.provenance hx, hagree,
    fun s => noClose_step hw.addressed hw.provenance h (ha s) (hw.noClose s)⟩, hgrows⟩

theorem Unclosed.exec (hw : Unclosed p w) {as : List Action}
    (has : ∀ a ∈ as, ∀ s, ¬ a.Closes s) (h : Lts.exec (Pair.step p) w as = some w') :
    Unclosed p w' ∧
      ∀ s, Link.Grows ((exchange p w).link s) ((exchange p w').link s) := by
  refine Lts.exec_invariant_along
    (I := fun v => Unclosed p v ∧ ∀ s, Link.Grows ((exchange p w).link s) ((exchange p v).link s))
    (P := fun _ a => ∀ s, ¬ a.Closes s) (fun v a v' hv ha hs => ?_) ⟨hw, fun s => .refl _⟩
    (Lts.along_of_forall_mem has w) h
  obtain ⟨hv', hgrows⟩ := hv.1.step ha hs
  exact ⟨hv', fun s => (hv.2 s).trans (hgrows s)⟩

/-! ## Handshake agreement -/

variable (p) in
/-- Side `s` has executed `Connect` with the data of the connection that the
other side holds, and holds the connection it did that for. -/
def ConnectExecuted (w : Pair) (s : Side) : Prop :=
  ∃ c c' remote, (w.node s).connections (nodeId p s.other) = some c ∧
    (w.node s.other).connections (nodeId p s) = some c' ∧
    c.remoteConnectionData = c'.createConnectionExchangeData ∧
    Call.connect (nodeId p s.other) remote ∈ (w.node s).calls ∧
    remote.data = c'.createConnectionExchangeData

variable (p) in
/-- The state of the connection of side `s` to the other side. -/
def stateOf (w : Pair) (s : Side) : ConnectionState :=
  (w.node s).connectionStates (nodeId p s.other)

theorem ConnectExecuted.of_connectedWith {s : Side} (h : (exchange p w).ConnectedWith p s) :
    w.ConnectExecuted p s := by
  obtain ⟨c, c', remote, hc, hc', hrest⟩ := h
  refine ⟨c, c', remote, hc, ?_, hrest⟩
  rw [exchange, ConnectionManager.link_connection, Side.other_other] at hc'
  exact hc'

/-- **Handshake agreement**: in every run in which no side closes, for each
side. -/
theorem handshake_agreement {as : List Action} (has : ∀ a ∈ as, ∀ s, ¬ a.Closes s)
    (h : Lts.exec (step p) (init p) as = some w) (s : Side) :
    (w.node s).calls.countP Call.isConnect ≤ 1 ∧
    (Within exchgFlagRemoteConnected (w.stateOf p s).exchgFlags →
      w.ConnectExecuted p s.other) ∧
    ((w.stateOf p s).state = .connected →
      w.ConnectExecuted p s ∧ w.ConnectExecuted p s.other ∧
        (w.stateOf p s.other).exchgFlags = exchgFlagCompleted ∧
        (w.stateOf p s).isAvailable = true) ∧
    (w.node s).calls.countP Call.isConnectionOpened ≤ 1 ∧
    (w.node s).calls.countP Call.isNodeConnected ≤ 1 ∧
    -- whatever comes next without a close
    ∀ bs w', (∀ a ∈ bs, ∀ s, ¬ a.Closes s) → Lts.exec (step p) w bs = some w' →
      Within (w.stateOf p s).exchgFlags (w'.stateOf p s).exchgFlags ∧
        ((w.stateOf p s).state = .connected → (w'.stateOf p s).state = .connected) := by
  have hw := (unclosed_init.exec has h).1
  have hagree := hw.agreement s
  have hother := hw.agreement s.other
  have hconnects := hagree.counted.connects
  have hopens := hagree.counted.opens
  have hnode := hagree.counted.nodeConnected
  refine ⟨hconnects, fun hset => ?_, fun hstate => ?_, hopens, le_trans hnode hopens, ?_⟩
  · exact .of_connectedWith (hother.connected (hagree.remoteConnected hset))
  · obtain ⟨hflags, havailable⟩ := hagree.completed hstate
    have hcompleted := (hw.provenance s).completed hstate
    have hset : Within exchgFlagConnectedToRemote exchgFlagCompleted :=
      ConnectionState.proper_connectedToRemote
    refine ⟨.of_connectedWith (hagree.connected (hcompleted ▸ hset)),
      .of_connectedWith (hother.connected (hflags ▸ hset)), hflags, ?_⟩
    exact decide_eq_true (ge_of_eq havailable)
  · intro bs w' hbs h'
    have hgrows := (hw.exec hbs h').2 s
    exact ⟨hgrows.flags, hgrows.connected⟩

/-! ### A handshake -/

/-- The two nodes of an example, each of which knows the address of the other. -/
def exampleParams : Side → Params
  | .a =>
    { ownNodeId := 1
      connectionCtxIdent := 0x11
      lid := 1
      maxNumConnections := 4
      listener := true
      discoveryListener := true
      discoveryManager := { infoToGet := [some { hostname := "b", address := 0x0A000002 }] } }
  | .b =>
    { ownNodeId := 2
      connectionCtxIdent := 0x22
      lid := 2
      maxNumConnections := 4
      listener := true
      discoveryListener := true
      discoveryManager := { infoToGet := [some { hostname := "a", address := 0x0A000001 }] } }

/-- Queue pair data the verbs create. -/
def exampleEnvironment (physicalQPId : UInt32) : Environment where
  created := .ok { physicalQPId, psn := physicalQPId + 1 }

/-- Both nodes discover each other. -/
def exampleDiscovery : List Action :=
  [.discoveryResp .a 0x0A000002, .runJob .a {}, .discoveryResp .b 0x0A000001, .runJob .b {}]

/-- Node a creates, and each packet is handled at once, until b is connected. -/
def exampleCreation : List Action :=
  [.requestCreation .a, .addCreateJob .a, .runJob .a (exampleEnvironment 7),
    .receive .b 0, .runJob .b (exampleEnvironment 9), .receive .a 0, .runJob .a {},
    .receive .b 0, .runJob .b {}]

/-- Node a sends its exchange data once more, b answers. -/
def exampleRetransmit : List Action :=
  [.addCreateJob .a, .runJob .a {}, .receive .b 0, .runJob .b {}, .receive .a 0, .runJob .a {}]

theorem exampleHandshake_closes :
    ∀ a ∈ exampleDiscovery ++ exampleCreation ++ exampleRetransmit, ∀ s, ¬ a.Closes s := by
  intro a ha s
  cases a with
  | closeConnection t force shutdown =>
    simp [exampleDiscovery, exampleCreation, exampleRetransmit] at ha
  | _ => exact id

theorem handshake_agreement_example :
    ∃ w, Lts.exec (step exampleParams) (init exampleParams)
        (exampleDiscovery ++ exampleCreation ++ exampleRetransmit) = some w ∧
      (w.stateOf exampleParams .a).state = .connected ∧
      w.ConnectExecuted exampleParams .a ∧ w.ConnectExecuted exampleParams .b ∧
      (w.node .a).calls.countP Call.isConnect ≤ 1 := by
  have hrun : (Lts.exec (step exampleParams) (init exampleParams)
      (exampleDiscovery ++ exampleCreation ++ exampleRetransmit)).map
        (fun w => (w.stateOf exampleParams .a).state) = some .connected := by
    decide +kernel
  obtain ⟨w, hw, hstate⟩ := Option.map_eq_some_iff.mp hrun
  obtain ⟨hconnects, -, hconnected, -⟩ := handshake_agreement exampleHandshake_closes hw .a
  obtain ⟨ha, hb, -⟩ := hconnected hstate
  exact ⟨w, hw, hstate, ha, hb, hconnects⟩

end Pair

end Ibdxnet.Con
