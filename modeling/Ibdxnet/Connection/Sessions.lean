import Ibdxnet.Connection.Handshake

/-!
# Sessions

A node may close its connection and create another one within the same process.
Exchange data does not say which of them it is about: what is still on its way
from an earlier connection, and a peer that is still connected to it, take part
in the exchange of the next one.

    m_state = Connected of s → the other side has executed Connect with data of
                               a connection that s created, now or earlier
    s creates its connection with nothing left of an earlier one
                             → the data is that of this connection, and the
                               other side holds it until it closes
                                                         (session_isolation)

In the second case the other side may close and create as it likes.
-/

namespace Ibdxnet.Con

open Flags
open ConnectionManager (Params)

namespace Exchange

variable {p : Side → Params} {x x' : Exchange} {s : Side}

variable (p) in
/-- The other side has executed `Connect` with the data of the connection `s`
holds, and unless it closed since then it is still connected. -/
def ConnectedTo (x : Exchange) (s : Side) : Prop :=
  ∃ c remote before after, (x.link s).connection = some c ∧
    remote.data = c.createConnectionExchangeData ∧
    x.calls s.other = before ++ Call.connect (p s).ownNodeId remote :: after ∧
    ((∀ force, Call.close (p s).ownNodeId force ∉ after) →
      Within exchgFlagConnectedToRemote (x.link s.other).state.exchgFlags)

theorem ConnectedTo.exists_connection (h : x.ConnectedTo p s) :
    ∃ c, (x.link s).connection = some c := by
  obtain ⟨c, _, _, _, hc, -⟩ := h
  exact ⟨c, hc⟩

variable (p) in
/-- Only data of the connection `s` holds takes part in the exchange. -/
structure Session (x : Exchange) (s : Side) : Prop where
  /-- what `s` has sent -/
  sent : ∀ remote ∈ x.pending s.other, ∃ c, (x.link s).connection = some c ∧
    remote.data = c.createConnectionExchangeData
  /-- what the other side is connected to -/
  peer : Within exchgFlagConnectedToRemote (x.link s.other).state.exchgFlags →
    x.ConnectedTo p s ∧ ∀ c c', (x.link s).connection = some c →
      (x.link s.other).connection = some c' →
      c'.remoteConnectionData = c.createConnectionExchangeData
  /-- what the other side announces -/
  announced : ∀ remote ∈ x.pending s,
    Within exchgFlagConnectedToRemote remote.header.exchgFlags → x.ConnectedTo p s
  remoteConnected : Within exchgFlagRemoteConnected (x.link s).state.exchgFlags →
    x.ConnectedTo p s

/-! ## Every step keeps it -/

section
variable {l : Link} {rest sent : Multiset ConnectionExchgData} {calls : List Call}

/-- A step of `s` that keeps its connection. -/
theorem ConnectedTo.act_self (h : x.ConnectedTo p s) (hgrows : Link.Grows (x.link s) l) :
    (x.act s l rest sent calls).ConnectedTo p s := by
  obtain ⟨c, remote, before, after, hc, hdata, hcalls, hopen⟩ := h
  obtain ⟨c', hc', hsame⟩ := hgrows.data c hc
  refine ⟨c', remote, before, after, ?_, hdata.trans hsame.symm, ?_, ?_⟩
  · rw [act_link_self, hc']
  · rw [act_calls_other, hcalls]
  · rw [act_link_other]
    exact hopen

/-- A step of the other side: it stays connected or closes. -/
theorem ConnectedTo.act_other (h : x.ConnectedTo p s)
    (hflags : (∀ force, Call.close (p s).ownNodeId force ∉ calls) →
      Within (x.link s.other).state.exchgFlags l.state.exchgFlags) :
    (x.act s.other l rest sent calls).ConnectedTo p s := by
  obtain ⟨c, remote, before, after, hc, hdata, hcalls, hopen⟩ := h
  refine ⟨c, remote, before, after ++ calls, ?_, hdata, ?_, fun hnot => ?_⟩
  · have hlink := act_link_other x s.other l rest sent calls
    rw [Side.other_other] at hlink
    rw [hlink, hc]
  · rw [act_calls_self, hcalls, List.append_assoc, List.cons_append]
  · rw [act_link_self]
    have hafter := hopen fun force hmem => hnot force (List.mem_append_left _ hmem)
    exact hafter.trans (hflags fun force hmem => hnot force (List.mem_append_right _ hmem))

/-- What a step of `s` has to keep. -/
theorem Session.act_self (h : Session p x s) (hgrows : Link.Grows (x.link s) l)
    (hrest : ∀ remote ∈ rest, remote ∈ x.pending s)
    (hsent : ∀ remote ∈ sent, ∃ c, l.connection = some c ∧
      remote.data = c.createConnectionExchangeData)
    (hremote : Within exchgFlagRemoteConnected l.state.exchgFlags → x.ConnectedTo p s) :
    Session p (x.act s l rest sent calls) s where
  sent := by
    rw [act_pending_other, act_link_self]
    intro remote hr
    rcases Multiset.mem_add.mp hr with hr | hr
    · obtain ⟨c, hc, hdata⟩ := h.sent remote hr
      obtain ⟨c', hc', hsame⟩ := hgrows.data c hc
      exact ⟨c', hc', hdata.trans hsame.symm⟩
    · exact hsent remote hr
  peer := by
    rw [act_link_other, act_link_self]
    intro hset
    obtain ⟨hconnected, hdata⟩ := h.peer hset
    obtain ⟨c₀, hc₀⟩ := hconnected.exists_connection
    obtain ⟨c₁, hc₁, hsame⟩ := hgrows.data c₀ hc₀
    refine ⟨hconnected.act_self hgrows, fun c c' hc hc' => ?_⟩
    obtain rfl := Option.some.inj (hc₁.symm.trans hc)
    exact (hdata c₀ c' hc₀ hc').trans hsame.symm
  announced := by
    rw [act_pending_self]
    exact fun remote hr hset => (h.announced remote (hrest remote hr) hset).act_self hgrows
  remoteConnected := by
    rw [act_link_self]
    exact fun hset => (hremote hset).act_self hgrows

/-- What a step of the other side has to keep. -/
theorem Session.act_other (h : Session p x s)
    (hflags : (∀ force, Call.close (p s).ownNodeId force ∉ calls) →
      Within (x.link s.other).state.exchgFlags l.state.exchgFlags)
    (hrest : ∀ remote ∈ rest, remote ∈ x.pending s.other)
    (hsent : ∀ remote ∈ sent, Within exchgFlagConnectedToRemote remote.header.exchgFlags →
      Within exchgFlagConnectedToRemote l.state.exchgFlags)
    (hpeer : Within exchgFlagConnectedToRemote l.state.exchgFlags →
      (x.act s.other l rest sent calls).ConnectedTo p s ∧ ∀ c c', (x.link s).connection = some c →
        l.connection = some c' → c'.remoteConnectionData = c.createConnectionExchangeData) :
    Session p (x.act s.other l rest sent calls) s := by
  have hlink := act_link_other x s.other l rest sent calls
  have hpending := act_pending_other x s.other l rest sent calls
  rw [Side.other_other] at hlink hpending
  refine ⟨?_, ?_, ?_, ?_⟩
  · rw [act_pending_self, hlink]
    exact fun remote hr => h.sent remote (hrest remote hr)
  · rw [act_link_self, hlink]
    exact hpeer
  · rw [hpending]
    intro remote hr hset
    rcases Multiset.mem_add.mp hr with hr | hr
    · exact (h.announced remote hr hset).act_other hflags
    · exact (hpeer (hsent remote hr hset)).1
  · rw [hlink]
    exact fun hset => (h.remoteConnected hset).act_other hflags

/-- A step of the other side that changes neither its flags nor its connection. -/
theorem Session.act_other_same (h : Session p x s)
    (hflags : l.state.exchgFlags = (x.link s.other).state.exchgFlags)
    (hconnection : l.connection = (x.link s.other).connection)
    (hrest : ∀ remote ∈ rest, remote ∈ x.pending s.other)
    (hsent : ∀ remote ∈ sent, Within exchgFlagConnectedToRemote remote.header.exchgFlags →
      Within exchgFlagConnectedToRemote l.state.exchgFlags) :
    Session p (x.act s.other l rest sent calls) s := by
  have hwithin : (∀ force, Call.close (p s).ownNodeId force ∉ calls) →
      Within (x.link s.other).state.exchgFlags l.state.exchgFlags := fun _ =>
    hflags ▸ Within.refl _
  refine h.act_other hwithin hrest hsent fun hset => ?_
  rw [hflags] at hset
  rw [hconnection]
  exact ⟨(h.peer hset).1.act_other hwithin, (h.peer hset).2⟩

end

/-- The other side handles exchange data: it can only connect to what `s` holds. -/
theorem Session.act_learn (h : Session p x s) {remote : ConnectionExchgData}
    {rest : Multiset ConnectionExchgData} {c' : Connection}
    (hpending : x.pending s.other = remote ::ₘ rest)
    (hc' : (x.link s.other).connection = some c') :
    Session p (x.act s.other ((x.link s.other).learn remote) rest 0
      ((x.link s.other).learnCalls (p s).ownNodeId remote)) s := by
  obtain ⟨c, hc, hdata⟩ := h.sent remote (hpending ▸ Multiset.mem_cons_self _ _)
  have hgrows := Link.Grows.learn hc' remote
  have hlearn := Link.learn_connection hc' remote
  refine h.act_other (fun _ => hgrows.flags)
    (fun r hr => hpending ▸ Multiset.mem_cons_of_mem hr) (by simp) fun _ => ?_
  cases hset : (x.link s.other).state.isConnectedToRemote with
  | true =>
    obtain ⟨hconnected, hsame⟩ := h.peer (ConnectionState.isConnectedToRemote_iff.mp hset)
    refine ⟨hconnected.act_other fun _ => hgrows.flags, fun c₁ c₂ hc₁ hc₂ => hsame c₁ c₂ hc₁ ?_⟩
    rwa [hlearn, if_pos hset, ← hc'] at hc₂
  | false =>
    rw [if_neg (by simp [hset])] at hlearn
    constructor
    · refine ⟨c, remote, x.calls s.other, [], ?_, hdata, ?_, fun _ => ?_⟩
      · have hlink := act_link_other x s.other ((x.link s.other).learn remote) rest 0
          ((x.link s.other).learnCalls (p s).ownNodeId remote)
        rw [Side.other_other] at hlink
        rw [hlink, hc]
      · rw [act_calls_self]
        simp [Link.learnCalls, hset]
      · rw [act_link_self]
        exact Link.connectedToRemote_within_learnFlags _ _
    · intro c₁ c₂ hc₁ hc₂
      rw [hlearn] at hc₂
      obtain rfl := Option.some.inj hc₂
      obtain rfl := Option.some.inj (hc.symm.trans hc₁)
      exact hdata

/-- **Every part of a step keeps it.** -/
theorem Session.micro (hprov : ∀ t, Provenance p x t) (h : Session p x s) (hm : Micro p x x') :
    Session p x' s := by
  cases hm with
  | @note u calls hcalls =>
    rcases Side.eq_or_eq_other s u with rfl | rfl
    · exact h.act_self (.refl _) (fun _ => id) (by simp) h.remoteConnected
    · exact h.act_other_same rfl rfl (fun _ => id) (by simp)
  | @state u st hst =>
    rcases Side.eq_or_eq_other s u with rfl | rfl
    · refine h.act_self (.sameExchange hst) (fun _ => id) (by simp) ?_
      rw [hst.exchgFlags]
      exact h.remoteConnected
    · exact h.act_other_same hst.exchgFlags rfl (fun _ => id) (by simp)
  | @net u rest hrest =>
    rcases Side.eq_or_eq_other s u with rfl | rfl
    · exact h.act_self (.refl _) hrest (by simp) h.remoteConnected
    · exact h.act_other_same rfl rfl hrest (by simp)
  | @allocate u connectionId qp hc =>
    have hgrows := Link.Grows.allocate (hprov u).holds hc connectionId qp
    rcases Side.eq_or_eq_other s u with rfl | rfl
    · exact h.act_self hgrows (fun _ => id) (by simp) h.remoteConnected
    · have hzero := ((hprov _).holds.unallocated hc).1
      refine h.act_other (fun _ => hgrows.flags) (fun _ => id) (by simp) fun hset => ?_
      rw [Link.allocate, hzero] at hset
      exact absurd hset ConnectionState.not_connectedToRemote_within_zero
  | @learn u remote rest c hpending hc =>
    have hrest : ∀ r ∈ rest, r ∈ x.pending u := fun r hr =>
      hpending ▸ Multiset.mem_cons_of_mem hr
    rcases Side.eq_or_eq_other s u with rfl | rfl
    · refine h.act_self (.learn hc remote) hrest (by simp) fun hset => ?_
      rcases Link.remoteConnected_within_learnFlags_iff.mp hset with hset | hset
      · exact h.remoteConnected hset
      · exact h.announced remote (hpending ▸ Multiset.mem_cons_self _ _) hset
    · rw [Side.other_other]
      exact h.act_learn hpending hc
  | @opened u c hc hcomp =>
    rcases Side.eq_or_eq_other s u with rfl | rfl
    · exact h.act_self (.opened _) (fun _ => id) (by simp) h.remoteConnected
    · exact h.act_other_same rfl rfl (fun _ => id) (by simp)
  | @send u c hc =>
    rcases Side.eq_or_eq_other s u with rfl | rfl
    · refine h.act_self (.refl _) (fun _ => id) (fun remote hr => ?_) h.remoteConnected
      rw [Multiset.mem_singleton.mp hr]
      exact ⟨c, hc, rfl⟩
    · refine h.act_other_same rfl rfl (fun _ => id) fun remote hr hset => ?_
      rw [Multiset.mem_singleton.mp hr] at hset
      exact hset

theorem Session.micros (hprov : ∀ t, Provenance p x t) (h : Session p x s)
    (hm : Relation.ReflTransGen (Micro p) x x') : Session p x' s := by
  induction hm with
  | refl => exact h
  | tail hms hm ih => exact ih.micro (Provenance.micros hprov hms) hm

/-- The other side may close. -/
theorem Session.close (h : Session p x s) (hs : Step p (.close s.other) x x') :
    Session p x' s := by
  cases hs with
  | @close _ _ c force hc =>
    refine h.act_other (fun hnot => ?_) (fun _ => id) (by simp) fun hset => ?_
    · refine absurd ?_ (hnot force)
      simp [Link.closedCalls]
    · exact absurd hset ConnectionState.not_connectedToRemote_within_zero
  | closeAgain hc => exact h.act_other_same rfl rfl (fun _ => id) (by simp)

theorem Session.step (hprov : ∀ t, Provenance p x t) (h : Session p x s) {label : Label}
    (hs : Step p label x x') (hclose : label ≠ .close s) : Session p x' s := by
  by_cases hother : label = .close s.other
  · subst hother
    exact h.close hs
  · refine h.micros hprov (hs.micro ?_ fun t => ?_)
    · rintro t rfl
      exact Provenance.not_kill hprov hs
    · rcases Side.eq_or_eq_other s t with rfl | rfl
      · exact hclose
      · exact hother

end Exchange

namespace Pair

variable {p : Side → Params} {w w' : Pair} {s : Side} {a : Action}

variable (p) in
/-- Side `s` is about to create a connection with nothing left of an earlier
one: the other side is not connected to one, no data of one is on its way, and
nothing on its way to `s` announces a connected sender. -/
structure Clean (w : Pair) (s : Side) : Prop where
  unallocated : (w.node s).connections (nodeId p s.other) = none
  unconnected : (w.stateOf p s.other).isConnectedToRemote = false
  sent : (exchange p w).pending s.other = 0
  announced : ∀ remote ∈ (exchange p w).pending s,
    ConnectionState.isRemoteConnectedToCurrent remote.header.exchgFlags = false
  noClose : w.NoClose s

variable (p) in
/-- The other side has executed `Connect` with data of a connection `s` created,
the one it holds or an earlier one. -/
def ConnectedToCreated (w : Pair) (s : Side) : Prop :=
  ∃ remote, Call.connect (nodeId p s) remote ∈ (w.node s.other).calls ∧
    Call.createConnection (nodeId p s.other) remote.data ∈ (w.node s).calls

variable (p) in
/-- The other side has executed `Connect` with the data of the connection `s`
holds, and holds the connection it did that for unless it closed since. -/
def ConnectedToCurrent (w : Pair) (s : Side) : Prop :=
  ∃ c remote before after, (w.node s).connections (nodeId p s.other) = some c ∧
    remote.data = c.createConnectionExchangeData ∧
    (w.node s.other).calls = before ++ Call.connect (nodeId p s) remote :: after ∧
    ((∀ force, Call.close (nodeId p s) force ∉ after) →
      ∃ c', (w.node s.other).connections (nodeId p s) = some c' ∧
        c'.remoteConnectionData = c.createConnectionExchangeData)

variable (p) in
/-- What holds from a clean state on, until `s` closes. -/
structure InSession (s : Side) (w : Pair) : Prop where
  addressed : Addressed p w
  provenance : ∀ t, (exchange p w).Provenance p t
  noClose : w.NoClose s
  session : (exchange p w).Session p s

theorem Clean.session (hw : Addressed p w) (h : Clean p w s) : (exchange p w).Session p s where
  sent := by simp [h.sent]
  peer hset := by
    have hnot := h.unconnected
    rw [← Bool.not_eq_true, ConnectionState.isConnectedToRemote_iff] at hnot
    exact absurd hset hnot
  announced remote hr hset := by
    have hnot := h.announced remote hr
    rw [← Bool.not_eq_true, ConnectionState.isRemoteConnectedToCurrent_iff] at hnot
    exact absurd hset hnot
  remoteConnected hset := by
    have hzero := ((hw.holds s (nodeId p s.other)).unallocated h.unallocated).1
    have hflags : ((exchange p w).link s).state.exchgFlags = 0 := hzero
    rw [hflags] at hset
    exact absurd hset ConnectionState.not_remoteConnected_within_zero

theorem InSession.step (h : InSession p s w) (ha : ¬ a.Closes s)
    (hs : Pair.step p w a = some w') : InSession p s w' := by
  obtain ⟨hw', label, hx, hlabel⟩ := step_exchange h.addressed hs
  exact ⟨hw', Exchange.Provenance.step h.provenance hx,
    noClose_step h.addressed h.provenance hs ha h.noClose,
    h.session.step h.provenance hx (hlabel.not_close h.noClose)⟩

/-- Both flags are set once a side is connected, so the other side has connected. -/
theorem remoteConnected_of_connected (hprov : (exchange p w).Provenance p s)
    (hstate : (w.stateOf p s).state = .connected) :
    Within exchgFlagRemoteConnected ((exchange p w).link s).state.exchgFlags := by
  rw [hprov.completed hstate]
  exact ConnectionState.proper_remoteConnected

theorem InSession.connectedToCurrent (h : InSession p s w)
    (hstate : (w.stateOf p s).state = .connected) : w.ConnectedToCurrent p s := by
  obtain ⟨c, remote, before, after, hc, hdata, hcalls, hopen⟩ :=
    h.session.remoteConnected (remoteConnected_of_connected (h.provenance s) hstate)
  refine ⟨c, remote, before, after, hc, hdata, hcalls, fun hnot => ?_⟩
  have hset := hopen hnot
  cases hc' : ((exchange p w).link s.other).connection with
  | none =>
    rw [((h.provenance s.other).holds.unallocated hc').1] at hset
    exact absurd hset ConnectionState.not_connectedToRemote_within_zero
  | some c' =>
    refine ⟨c', ?_, (h.session.peer hset).2 c c' hc hc'⟩
    rw [exchange, ConnectionManager.link_connection, Side.other_other] at hc'
    exact hc'

/-- **Session isolation**, of every run with closes: what the other side of a
connected side has connected to, and to which connection when it was created
with nothing left of an earlier one. -/
theorem session_isolation {ds : List Action} {w₀ : Pair}
    (h₀ : Lts.exec (step p) (init p) ds = some w₀) (s : Side) :
    ((w₀.stateOf p s).state = .connected → w₀.ConnectedToCreated p s) ∧
    (w₀.Clean p s → ∀ as w, (∀ a ∈ as, ¬ a.Closes s) → Lts.exec (step p) w₀ as = some w →
      (w.stateOf p s).state = .connected → w.ConnectedToCurrent p s) := by
  obtain ⟨hw₀, hprov⟩ := provenance h₀
  constructor
  · intro hstate
    have hexecuted := (hprov s).remoteConnected (remoteConnected_of_connected (hprov s) hstate)
    unfold Exchange.Executed at hexecuted
    rw [Side.other_other] at hexecuted
    exact hexecuted
  · intro hclean as w has h hstate
    have hsession : InSession p s w :=
      Lts.exec_invariant_along (P := fun _ a => ¬ a.Closes s) (fun _ _ _ hi ha hs => hi.step ha hs)
        ⟨hw₀, hprov, hclean.noClose, hclean.session hw₀⟩ (Lts.along_of_forall_mem has w₀) h
    exact hsession.connectedToCurrent hstate

/-! ### A second session -/

/-- Both nodes are connected to each other. -/
def exampleSession : List Action := exampleDiscovery ++ exampleCreation ++ exampleRetransmit

/-- Node a closes its connection and discovers b again. -/
def exampleCloseA : List Action :=
  [.closeConnection .a true false, .runJob .a {}, .runJob .a {},
    .discoveryResp .a 0x0A000002, .runJob .a {}]

/-- Node a creates another connection; b still holds the old one. -/
def exampleRecreation : List Action :=
  [.requestCreation .a, .addCreateJob .a, .runJob .a (exampleEnvironment 11),
    .receive .b 0, .runJob .b {}, .receive .a 0, .runJob .a {}]

/-- Node a is connected, with a peer that is connected to the queue pair of the
connection that a has closed. -/
theorem recreation_not_isolated :
    ∃ w, Lts.exec (step exampleParams) (init exampleParams)
        (exampleSession ++ exampleCloseA ++ exampleRecreation) = some w ∧
      (w.stateOf exampleParams .a).state = .connected ∧
      ((w.node .a).connections 2).map Connection.createConnectionExchangeData =
        some { physicalQPId := 11, psn := 12 } ∧
      ((w.node .b).connections 1).map Connection.remoteConnectionData =
        some { physicalQPId := 7, psn := 8 } ∧
      ¬ w.ConnectExecuted exampleParams .b := by
  have hrun : (Lts.exec (step exampleParams) (init exampleParams)
      (exampleSession ++ exampleCloseA ++ exampleRecreation)).map (fun w =>
        ((w.stateOf exampleParams .a).state,
          ((w.node .a).connections 2).map Connection.createConnectionExchangeData,
          ((w.node .b).connections 1).map Connection.remoteConnectionData)) =
      some (.connected, some { physicalQPId := 11, psn := 12 },
        some { physicalQPId := 7, psn := 8 }) := by
    decide +kernel
  obtain ⟨w, hw, h⟩ := Option.map_eq_some_iff.mp hrun
  simp only [Prod.mk.injEq] at h
  obtain ⟨hstate, ha, hb⟩ := h
  refine ⟨w, hw, hstate, ha, hb, ?_⟩
  rintro ⟨c, c', -, hc, hc', hdata, -⟩
  replace hc : (w.node .b).connections 1 = some c := hc
  replace hc' : (w.node .a).connections 2 = some c' := hc'
  rw [hc, Option.map_some, Option.some.injEq, hdata] at hb
  rw [hc', Option.map_some, hb] at ha
  exact absurd ha (by decide)

/-- Node b closes too, and discovers a again. -/
def exampleCloseB : List Action :=
  [.closeConnection .b true false, .runJob .b {}, .runJob .b {},
    .discoveryResp .b 0x0A000001, .runJob .b {}]

/-- The second handshake, to the end. -/
def exampleSecond : List Action :=
  [.requestCreation .a, .addCreateJob .a, .runJob .a (exampleEnvironment 11),
    .receive .b 0, .runJob .b (exampleEnvironment 13), .receive .a 0, .runJob .a {},
    .receive .b 0, .runJob .b {}] ++ exampleRetransmit

theorem session_isolation_second :
    ∃ w, Lts.exec (step exampleParams) (init exampleParams)
        (exampleSession ++ exampleCloseA ++ exampleCloseB ++ exampleSecond) = some w ∧
      (w.stateOf exampleParams .a).state = .connected ∧
      w.ConnectedToCurrent exampleParams .a := by
  have hrun : (Lts.exec (step exampleParams) (init exampleParams)
      (exampleSession ++ exampleCloseA ++ exampleCloseB)).map (fun w =>
        ((w.node .a).connections 2, (w.stateOf exampleParams .b).isConnectedToRemote,
          w.net .a ++ w.net .b, (w.node .a).jobQueue ++ (w.node .b).jobQueue)) =
      some (none, false, [], []) := by
    decide +kernel
  have hrun' : (Lts.exec (step exampleParams) (init exampleParams)
      (exampleSession ++ exampleCloseA ++ exampleCloseB ++ exampleSecond)).map (fun w =>
        (w.stateOf exampleParams .a).state) = some .connected := by
    decide +kernel
  obtain ⟨w₀, hw₀, h⟩ := Option.map_eq_some_iff.mp hrun
  obtain ⟨w, hw, hstate⟩ := Option.map_eq_some_iff.mp hrun'
  refine ⟨w, hw, hstate, ?_⟩
  obtain ⟨v, hv, hw⟩ := Lts.exec_append_eq_some.mp hw
  obtain rfl : w₀ = v := Option.some.inj (hw₀.symm.trans hv)
  simp only [Prod.mk.injEq, List.append_eq_nil_iff] at h
  obtain ⟨hnone, hset, ⟨hneta, hnetb⟩, hqa, hqb⟩ := h
  have hclean : w₀.Clean exampleParams .a :=
    { unallocated := hnone
      unconnected := hset
      sent := by simp [exchange, Side.other, hnetb, hqb]
      announced := by simp [exchange, hneta, hqa]
      noClose := by simp [NoClose, hqa] }
  have hcloses : ∀ a ∈ exampleSecond, ¬ a.Closes .a := by
    simp [exampleSecond, exampleRetransmit, Action.Closes]
  exact (session_isolation hw₀ .a).2 hclean exampleSecond w hcloses hw hstate

end Pair

end Ibdxnet.Con
