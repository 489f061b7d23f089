import Ibdxnet.Connection.Pair

/-!
# Where connection data comes from

In every run of two nodes, closes included: exchange data on its way to a node
is data of a connection the other process created, now or earlier, and a flag
is only ever set, or announced, by a `Connect` call that took such data.

    ConnectedToRemote of s   → s has executed Connect with data of a
                               connection the other side created
    RemoteConnected of s     → the other side has, with data of s
    m_state = Connected of s → both

Since both processes live on, their idents never change, and no connection is
taken for a zombie (`Provenance.not_kill`).
-/

namespace Ibdxnet.Con

open Flags
open ConnectionManager (Params)

namespace Exchange

variable {p : Side → Params} {x x' : Exchange} {s : Side}

variable (p) in
/-- Side `s` has executed `Connect` with the data of a connection the other side
created. -/
def Executed (x : Exchange) (s : Side) : Prop :=
  ∃ remote, Call.connect (p s.other).ownNodeId remote ∈ x.calls s ∧
    Call.createConnection (p s).ownNodeId remote.data ∈ x.calls s.other

variable (p) in
structure Provenance (x : Exchange) (s : Side) : Prop where
  holds : (x.link s).Holds
  /-- what `s` has sent -/
  sent : ∀ remote ∈ x.pending s.other,
    remote.header.conManIdent = (p s).connectionCtxIdent ∧
    Call.createConnection (p s.other).ownNodeId remote.data ∈ x.calls s ∧
    (Within exchgFlagConnectedToRemote remote.header.exchgFlags → Executed p x s)
  current : ∀ c, (x.link s).connection = some c →
    Call.createConnection (p s.other).ownNodeId c.createConnectionExchangeData ∈ x.calls s
  connected : Within exchgFlagConnectedToRemote (x.link s).state.exchgFlags →
    Executed p x s ∧ ∀ c, (x.link s).connection = some c →
      c.getRemoteConnectionManIdent = (p s.other).connectionCtxIdent
  remoteConnected : Within exchgFlagRemoteConnected (x.link s).state.exchgFlags →
    Executed p x s.other
  completed : (x.link s).state.state = .connected →
    (x.link s).state.exchgFlags = exchgFlagCompleted

theorem provenance_init (s : Side) : Provenance p init s where
  holds := Link.holds_new
  sent := by simp [init]
  current := by simp [init]
  connected h := absurd h ConnectionState.not_connectedToRemote_within_zero
  remoteConnected h := absurd h ConnectionState.not_remoteConnected_within_zero
  completed h := by cases h

/-! ## Calls are never taken back -/

section
variable {l : Link} {rest sent : Multiset ConnectionExchgData} {calls : List Call}

theorem mem_calls_act {t : Side} {call : Call} (h : call ∈ x.calls t) :
    call ∈ (x.act s l rest sent calls).calls t := by
  rcases Side.eq_or_eq_other s t with rfl | rfl
  · rw [act_calls_self]
    exact List.mem_append_left _ h
  · rw [act_calls_other]
    exact h

theorem Executed.act {t : Side} (h : Executed p x t) :
    Executed p (x.act s l rest sent calls) t := by
  obtain ⟨remote, hconnect, hcreate⟩ := h
  exact ⟨remote, mem_calls_act hconnect, mem_calls_act hcreate⟩

/-- A step of `s` changes nothing on the other side, but takes what it sent. -/
theorem Provenance.act_other (h : Provenance p x s.other)
    (hrest : ∀ remote ∈ rest, remote ∈ x.pending s) :
    Provenance p (x.act s l rest sent calls) s.other where
  holds := by
    rw [act_link_other]
    exact h.holds
  sent := by
    rw [Side.other_other, act_pending_self]
    intro remote hremote
    have hsent := h.sent
    rw [Side.other_other] at hsent
    obtain ⟨hident, hcreate, hconnect⟩ := hsent remote (hrest remote hremote)
    exact ⟨hident, mem_calls_act hcreate, fun hc => (hconnect hc).act⟩
  current := by
    rw [act_link_other]
    exact fun c hc => mem_calls_act (h.current c hc)
  connected := by
    rw [act_link_other]
    exact fun hc => ⟨(h.connected hc).1.act, (h.connected hc).2⟩
  remoteConnected := by
    rw [act_link_other]
    exact fun hc => (h.remoteConnected hc).act
  completed := by
    rw [act_link_other]
    exact h.completed

end

/-! ## Every step keeps it -/

section
variable {l : Link} {rest sent : Multiset ConnectionExchgData} {calls : List Call}

/-- What a step of `s` has to keep on its own side. -/
theorem Provenance.act_self (h : Provenance p x s) (hholds : l.Holds)
    (hsent : ∀ remote ∈ sent,
      remote.header.conManIdent = (p s).connectionCtxIdent ∧
      Call.createConnection (p s.other).ownNodeId remote.data ∈ x.calls s ++ calls ∧
      (Within exchgFlagConnectedToRemote remote.header.exchgFlags →
        Executed p (x.act s l rest sent calls) s))
    (hcurrent : ∀ c, l.connection = some c →
      Call.createConnection (p s.other).ownNodeId c.createConnectionExchangeData ∈
        x.calls s ++ calls)
    (hconnected : Within exchgFlagConnectedToRemote l.state.exchgFlags →
      Executed p (x.act s l rest sent calls) s ∧ ∀ c, l.connection = some c →
        c.getRemoteConnectionManIdent = (p s.other).connectionCtxIdent)
    (hremote : Within exchgFlagRemoteConnected l.state.exchgFlags → Executed p x s.other)
    (hcompleted : l.state.state = .connected → l.state.exchgFlags = exchgFlagCompleted) :
    Provenance p (x.act s l rest sent calls) s where
  holds := by rwa [act_link_self]
  sent := by
    rw [act_pending_other]
    intro remote hremote
    rcases Multiset.mem_add.mp hremote with hremote | hremote
    · obtain ⟨hident, hcreate, hconnect⟩ := h.sent remote hremote
      exact ⟨hident, mem_calls_act hcreate, fun hc => (hconnect hc).act⟩
    · rw [act_calls_self]
      exact hsent remote hremote
  current := by
    rw [act_link_self, act_calls_self]
    exact hcurrent
  connected := by rwa [act_link_self]
  remoteConnected := by
    rw [act_link_self]
    exact fun hc => (hremote hc).act
  completed := by rwa [act_link_self]

/-- A step of `s` that leaves the link but for `m_state`, and sends nothing. -/
theorem Provenance.act_state (h : Provenance p x s) {st : ConnectionState}
    (hst : Link.SameExchange (x.link s).state st) :
    Provenance p (x.act s { x.link s with state := st } rest 0 calls) s := by
  refine h.act_self (h.holds.sameExchange hst) (by simp)
    (fun c hc => List.mem_append_left _ (h.current c hc)) ?_ ?_ ?_
  · rw [hst.exchgFlags]
    exact fun hc => ⟨(h.connected hc).1.act, (h.connected hc).2⟩
  · rw [hst.exchgFlags]
    exact h.remoteConnected
  · simp only
    rw [hst.exchgFlags]
    intro hstate
    rcases hst.state with hsame | ⟨hlt, -⟩
    · exact h.completed (hsame ▸ hstate)
    · rw [hstate] at hlt
      exact absurd hlt (by decide)

end

theorem sameExchange_refl (st : ConnectionState) : Link.SameExchange st st :=
  ⟨rfl, rfl, rfl, Or.inl rfl⟩

/-- Handling exchange data: a `Connect` call takes the data of the sender's
connection, and the sender's word on whether it is connected. -/
theorem Provenance.act_learn (h : ∀ t, Provenance p x t) {remote : ConnectionExchgData}
    {rest : Multiset ConnectionExchgData} {c : Connection}
    (hpending : remote ∈ x.pending s) (hc : (x.link s).connection = some c) :
    Provenance p (x.act s ((x.link s).learn remote) rest 0
      ((x.link s).learnCalls (p s.other).ownNodeId remote)) s := by
  have hsent := (h s.other).sent
  rw [Side.other_other] at hsent
  obtain ⟨hident, hcreate, hremote⟩ := hsent remote hpending
  have hc' := Link.learn_connection hc remote
  refine (h s).act_self ((h s).holds.learn hc remote) (by simp) ?_ ?_ ?_ ?_
  · intro c' hc''
    rw [hc', Option.some.injEq] at hc''
    subst hc''
    refine List.mem_append_left _ ?_
    have hcurrent := (h s).current c hc
    split <;> exact hcurrent
  · intro _
    cases hset : (x.link s).state.isConnectedToRemote with
    | true =>
      obtain ⟨hexec, hident'⟩ := (h s).connected (ConnectionState.isConnectedToRemote_iff.mp hset)
      refine ⟨hexec.act, fun c' hc'' => ?_⟩
      rw [hc', if_pos hset, Option.some.injEq] at hc''
      exact hc'' ▸ hident' c hc
    | false =>
      refine ⟨⟨remote, ?_, mem_calls_act hcreate⟩, fun c' hc'' => ?_⟩
      · simp [Link.learnCalls, hset]
      · rw [hc', if_neg (by simp [hset]), Option.some.injEq] at hc''
        exact hc'' ▸ hident
  · intro hr
    rcases Link.remoteConnected_within_learnFlags_iff.mp hr with hr | hr
    · exact (h s).remoteConnected hr
    · exact hremote hr
  · intro hstate
    have hproper := Link.proper_learnFlags (h s).holds.proper remote.header.exchgFlags
    refine hproper.antisymm ?_
    rw [← (h s).completed hstate]
    exact Link.within_learnFlags _ _

theorem Provenance.micro (h : ∀ t, Provenance p x t) (hm : Micro p x x') :
    ∀ t, Provenance p x' t := by
  cases hm with
  | @note s calls hcalls =>
    intro t
    rcases Side.eq_or_eq_other s t with rfl | rfl
    · exact (h t).act_state (sameExchange_refl _)
    · exact (h s.other).act_other fun _ => id
  | @state s st hst =>
    intro t
    rcases Side.eq_or_eq_other s t with rfl | rfl
    · exact (h t).act_state hst
    · exact (h s.other).act_other fun _ => id
  | @net s rest hrest =>
    intro t
    rcases Side.eq_or_eq_other s t with rfl | rfl
    · exact (h t).act_state (sameExchange_refl _)
    · exact (h s.other).act_other hrest
  | @allocate s connectionId qp hc =>
    intro t
    rcases Side.eq_or_eq_other s t with rfl | rfl
    · have hzero := ((h t).holds.unallocated hc).1
      refine (h t).act_self ((h t).holds.allocate connectionId qp) (by simp) ?_ ?_ ?_ ?_
      · intro c hc'
        simp only [Link.allocate, Option.some.injEq] at hc'
        subst hc'
        exact List.mem_append_right _ List.mem_cons_self
      · intro hset
        rw [Link.allocate, hzero] at hset
        exact absurd hset ConnectionState.not_connectedToRemote_within_zero
      · exact (h t).remoteConnected
      · intro hstate
        cases hstate
    · exact (h s.other).act_other fun _ => id
  | @learn s remote rest c hpending hc =>
    intro t
    rcases Side.eq_or_eq_other s t with rfl | rfl
    · exact act_learn h (hpending ▸ Multiset.mem_cons_self _ _) hc
    · exact (h s.other).act_other fun r hr => hpending ▸ Multiset.mem_cons_of_mem hr
  | @opened s c hc hcomp =>
    intro t
    rcases Side.eq_or_eq_other s t with rfl | rfl
    · refine (h t).act_self ((h t).holds.connected hc connectionAvailable) (by simp)
        (fun c' hc' => List.mem_append_left _ ((h t).current c' hc'))
        (fun hset => ⟨((h t).connected hset).1.act, ((h t).connected hset).2⟩)
        (h t).remoteConnected fun _ => ?_
      exact (ConnectionState.connectionExchgComplete_iff.mp hcomp.1).1
    · exact (h s.other).act_other fun _ => id
  | @send s c hc =>
    intro t
    rcases Side.eq_or_eq_other s t with rfl | rfl
    · refine (h t).act_self (h t).holds ?_
        (fun c' hc' => List.mem_append_left _ ((h t).current c' hc'))
        (fun hset => ⟨((h t).connected hset).1.act, ((h t).connected hset).2⟩)
        (h t).remoteConnected (h t).completed
      intro remote hremote
      rw [Multiset.mem_singleton] at hremote
      subst hremote
      exact ⟨rfl, List.mem_append_left _ ((h t).current c hc),
        fun hset => ((h t).connected hset).1.act⟩
    · exact (h s.other).act_other fun _ => id

theorem Provenance.micros (h : ∀ t, Provenance p x t)
    (hm : Relation.ReflTransGen (Micro p) x x') : ∀ t, Provenance p x' t := by
  induction hm with
  | refl => exact h
  | tail _ hm ih => exact Provenance.micro ih hm

/-- The ident a connection was made with is that of every sender. -/
theorem Provenance.not_kill (h : ∀ t, Provenance p x t) : ¬ Step p (.kill s) x x' := by
  intro hs
  cases hs with
  | @killed _ _ remote rest l calls c hpending halloc hc hcomp hident =>
    have hsent := (h s.other).sent
    rw [Side.other_other] at hsent
    have hremote := (hsent remote (hpending ▸ Multiset.mem_cons_self _ _)).1
    have hlearn := Provenance.micros h (micro_learn hpending halloc) s
    have hconnected := hlearn.connected
    rw [act_link_self] at hconnected
    have hc' := (hconnected (Link.connectedToRemote_within_learnFlags _ _)).2 c hc
    exact hident (hc'.trans hremote.symm)

theorem Provenance.close (h : ∀ t, Provenance p x t) (hs : Step p (.close s) x x') :
    ∀ t, Provenance p x' t := by
  intro t
  cases hs with
  | close hc =>
    rcases Side.eq_or_eq_other s t with rfl | rfl
    · exact (h t).act_self (Link.holds_closed _) (by simp) (fun c hc' => by cases hc')
        (fun hset => absurd hset ConnectionState.not_connectedToRemote_within_zero)
        (fun hset => absurd hset ConnectionState.not_remoteConnected_within_zero)
        (fun hstate => by cases hstate)
    · exact (h s.other).act_other fun _ => id
  | closeAgain hc =>
    rcases Side.eq_or_eq_other s t with rfl | rfl
    · exact (h t).act_self ((h t).holds.available _) (by simp)
        (fun c hc' => List.mem_append_left _ ((h t).current c hc'))
        (fun hset => ⟨((h t).connected hset).1.act, ((h t).connected hset).2⟩)
        (h t).remoteConnected (h t).completed
    · exact (h s.other).act_other fun _ => id

theorem Provenance.step (h : ∀ t, Provenance p x t) {label : Label} (hs : Step p label x x') :
    ∀ t, Provenance p x' t := by
  by_cases hkill : ∃ t, label = .kill t
  · obtain ⟨t, rfl⟩ := hkill
    exact absurd hs (Provenance.not_kill h)
  · by_cases hclose : ∃ t, label = .close t
    · obtain ⟨t, rfl⟩ := hclose
      exact Provenance.close h hs
    · exact Provenance.micros h
        (hs.micro (not_exists.mp hkill) (not_exists.mp hclose))

end Exchange

namespace Pair

variable {p : Side → Params} {w : Pair} {s : Side}

theorem exchange_init : exchange p (init p) = Exchange.init := by
  apply Exchange.ext
  · rfl
  · funext s
    simp [exchange, init, Exchange.init, ConnectionManager.new]
  · rfl

/-- Every run of two nodes, closes included. -/
theorem provenance {as : List Action} (h : Lts.exec (step p) (init p) as = some w) :
    Addressed p w ∧ ∀ s, (exchange p w).Provenance p s := by
  refine Lts.exec_invariant (I := fun w => Addressed p w ∧ ∀ s, (exchange p w).Provenance p s)
    (fun w a w' hi hs => ?_) ⟨addressed_init, fun s => ?_⟩ h
  · obtain ⟨hw', label, hx, -⟩ := step_exchange hi.1 hs
    exact ⟨hw', Exchange.Provenance.step hi.2 hx⟩
  · rw [exchange_init]
    exact Exchange.provenance_init s

/-- No close job is queued at side `s`. -/
def NoClose (w : Pair) (s : Side) : Prop := ∀ job ∈ (w.node s).jobQueue, job.isClose = false

/-- The action asks side `s` to close its connection. -/
def Action.Closes (s : Side) : Action → Prop
  | .closeConnection t _ _ => t = s
  | _ => False

theorem noClose_actNode {w' : Pair} {t : Side} {a : ConnectionManager.Action}
    (hact : w.actNode t a = some w') (hno : NoClose w s)
    (hjobs : ∀ m, (w.node t).step a = some m → t = s → ∀ job ∈ m.jobQueue,
      job.isClose = false) : NoClose w' s := by
  obtain ⟨m, hm, rfl⟩ := actNode_eq_some hact
  intro job hjob
  by_cases hts : t = s
  · subst hts
    simp only [Function.update_self] at hjob
    exact hjobs m hm rfl job hjob
  · simp only [Function.update_of_ne (Ne.symm hts)] at hjob
    exact hno job hjob

/-- Only the application asks for a close. -/
theorem noClose_step {w' : Pair} {a : Action} (hw : Addressed p w)
    (hprov : ∀ s, (exchange p w).Provenance p s) (h : step p w a = some w') (ha : ¬ a.Closes s)
    (hno : NoClose w s) : NoClose w' s := by
  have hadd : ∀ {t : Side} {job : Job}, (t = s → job.isClose = false) →
      ∀ m, (w.node t).step (.addJob job) = some m → t = s → ∀ j ∈ m.jobQueue,
        j.isClose = false := by
    intro t job hjob m hm hts j hj
    obtain rfl := Option.some.inj hm
    rcases List.mem_append.mp hj with hj | hj
    · exact hno j (hts ▸ hj)
    · rw [List.mem_singleton] at hj
      exact hj ▸ hjob hts
  cases a with
  | requestCreation t =>
    refine noClose_actNode h hno fun m hm hts => ?_
    obtain rfl := Option.some.inj hm
    exact hts ▸ hno
  | giveUpCreation t =>
    refine noClose_actNode h hno fun m hm hts => ?_
    obtain rfl := Option.some.inj hm
    exact hts ▸ hno
  | addCreateJob t => exact noClose_actNode h hno (hadd fun _ => rfl)
  | closeConnection t force shutdown =>
    exact noClose_actNode h hno (hadd fun hts => absurd hts ha)
  | discoveryResp t sourceIPV4 => exact noClose_actNode h hno (hadd fun _ => rfl)
  | receive t i =>
    simp only [step] at h
    cases hremote : (w.net t)[i]? with
    | none => simp [hremote] at h
    | some remote =>
      simp only [hremote] at h
      exact noClose_actNode h hno (hadd fun _ => rfl)
  | lose t i =>
    simp only [step] at h
    split at h
    · obtain rfl := Option.some.inj h
      exact hno
    · cases h
  | duplicate t i =>
    simp only [step] at h
    cases hremote : (w.net t)[i]? with
    | none => simp [hremote] at h
    | some remote =>
      simp only [hremote] at h
      obtain rfl := Option.some.inj h
      exact hno
  | runJob t env =>
    refine noClose_actNode h hno fun m hm hts j hj => ?_
    subst hts
    obtain ⟨job, jobQueue, hq, hd⟩ := ConnectionManager.step_runJob hm
    have hr := hw.runs t
    obtain ⟨label, calls, -, -, hstep, -, hclose⟩ :=
      hd.step_exchange (p := p) ⟨hr.1, hr.2, hr.3, hr.4, hr.5⟩ (hw.running t)
        (hw.jobs t job (hq ▸ List.mem_cons_self)) (hw.sent t) rfl (pending_of_head hq)
    by_contra hj'
    rw [Bool.not_eq_false] at hj'
    have hkill : label ≠ .kill t := fun hl =>
      Exchange.Provenance.not_kill hprov (hl ▸ hstep)
    have hmem : j ∈ (w.node t).jobQueue :=
      hq ▸ List.mem_cons_of_mem _ (hclose hkill j hj hj')
    rw [hno j hmem] at hj'
    cases hj'

end Pair

end Ibdxnet.Con
