import Ibdxnet.Connection.Handshake

/-!
# Quiescence of the handshake

Two discovered nodes that neither close nor lose exchange data.  Handling
exchange data is answered unless the handling side opens its connection, or is
connected and so is the sender.  So the exchange stops without both sides being
connected in one way only: the first side to be connected opens its connection
with the last packet that is on its way.

    every quiescent state after a create job has both sides connected
      ↔  no step opens the first connection with the last packet
                                                  (quiescent_connected_iff)
-/

namespace Ibdxnet.Con

open Flags
open ConnectionManager (Params Dispatched)

namespace Link

variable {l : Link} {remote : ConnectionExchgData}

/-- Both flags of the sender are set, so both flags of this side are. -/
theorem learn_exchgFlags_of_completed (hl : ConnectionState.Proper l.state.exchgFlags)
    (hremote : remote.header.exchgFlags = exchgFlagCompleted) :
    (l.learn remote).state.exchgFlags = exchgFlagCompleted := by
  have hproper := proper_learnFlags hl remote.header.exchgFlags
  refine hproper.antisymm (ConnectionState.completed_within_iff.mpr ⟨?_, ?_⟩)
  · exact connectedToRemote_within_learnFlags _ _
  · refine remoteConnected_within_learnFlags_iff.mpr (Or.inr ?_)
    rw [hremote]
    exact ConnectionState.proper_connectedToRemote

@[simp] theorem learn_remoteExchgFlags :
    (l.learn remote).state.remoteExchgFlags = remote.header.exchgFlags := rfl

@[simp] theorem learn_state : (l.learn remote).state.state = l.state.state := rfl

/-- A side whose exchange is complete and that has nothing to finish is connected. -/
theorem Holds.connected_of_not_completes (hl : l.Holds) {c : Connection}
    (hc : l.connection = some c) (hcomplete : l.state.connectionExchgComplete = true)
    (hnot : ¬ l.Completes) : l.state.state = .connected := by
  have hcreated := hl.allocated.mp (by simp [hc])
  have hne : l.state.state ≠ .created := fun hstate => hnot ⟨hcomplete, hstate⟩
  cases hstate : l.state.state <;> simp_all [State.val]

theorem connectionExchgComplete_learn (hl : l.Holds)
    (hremote : remote.header.exchgFlags = exchgFlagCompleted) :
    (l.learn remote).state.connectionExchgComplete = true :=
  ConnectionState.connectionExchgComplete_iff.mpr
    ⟨learn_exchgFlags_of_completed hl.proper hremote, hremote⟩

/-- What `__AllocateConnection` leaves of a link. -/
theorem Allocates.spec {n : NodeId} {l' : Link} {calls : List Call}
    (h : Allocates n l l' calls) (hl : l.Holds) :
    l'.Holds ∧ l'.state.remoteExchgFlags = l.state.remoteExchgFlags ∧
      (l.state.state = .connected → l'.state.state = .connected) ∧
      (l'.state.state = .connected → l.state.state = .connected) ∧
      ∃ c, l'.connection = some c := by
  cases h with
  | kept hc => exact ⟨hl, rfl, id, id, _, hc⟩
  | @created connectionId qp hc =>
    refine ⟨hl.allocate connectionId qp, rfl, (Grows.allocate hl hc connectionId qp).connected,
      fun hstate => ?_, _, rfl⟩
    cases hstate

end Link

namespace Exchange

variable {p : Side → Params} {x x' : Exchange} {s : Side}

/-- Only a connected side knows that the other side's flags are both set, and
says so. -/
structure Acknowledged (x : Exchange) (s : Side) : Prop where
  remote : (x.link s).state.remoteExchgFlags = exchgFlagCompleted →
    (x.link s).state.state = .connected
  sent : ∀ remote ∈ x.pending s.other, remote.header.exchgFlagsRemote = exchgFlagCompleted →
    (x.link s).state.state = .connected

theorem acknowledged_init (s : Side) : Acknowledged init s where
  remote h := by cases h
  sent := by simp [init]

section
variable {l : Link} {rest sent : Multiset ConnectionExchgData} {calls : List Call}

theorem Acknowledged.act_other (h : Acknowledged x s.other)
    (hrest : ∀ remote ∈ rest, remote ∈ x.pending s) :
    Acknowledged (x.act s l rest sent calls) s.other where
  remote := by
    rw [act_link_other]
    exact h.remote
  sent := by
    have hsent := h.sent
    rw [Side.other_other] at hsent ⊢
    rw [act_link_other, act_pending_self]
    exact fun remote hr => hsent remote (hrest remote hr)

theorem Acknowledged.act_self (h : Acknowledged x s)
    (hconnected : (x.link s).state.state = .connected → l.state.state = .connected)
    (hremote : l.state.remoteExchgFlags = exchgFlagCompleted → l.state.state = .connected)
    (hsent : ∀ remote ∈ sent, remote.header.exchgFlagsRemote = l.state.remoteExchgFlags) :
    Acknowledged (x.act s l rest sent calls) s where
  remote := by rwa [act_link_self]
  sent := by
    rw [act_link_self, act_pending_other]
    intro remote hr hflags
    rcases Multiset.mem_add.mp hr with hr | hr
    · exact hconnected (h.sent remote hr hflags)
    · exact hremote (hsent remote hr ▸ hflags)

end

/-- Every step keeps it: when both flags of the other side become known, the
connection is opened. -/
theorem Acknowledged.step (hprov : ∀ t, Provenance p x t) (h : ∀ t, Acknowledged x t)
    {label : Label} (hs : Step p label x x') (hclose : ∀ s, label ≠ .close s) :
    ∀ t, Acknowledged x' t := by
  have hmem : ∀ {s : Side} {remote : ConnectionExchgData} {rest : Multiset ConnectionExchgData},
      x.pending s = remote ::ₘ rest → ∀ r ∈ rest, r ∈ x.pending s := by
    intro s remote rest hpending r hr
    exact hpending ▸ Multiset.mem_cons_of_mem hr
  -- what exchange data leaves of a link that it does not open
  have hlearn : ∀ {s : Side} {l : Link} {calls : List Call} (remote : ConnectionExchgData),
      Link.Allocates (p s.other).ownNodeId (x.link s) l calls → ¬ (l.learn remote).Completes →
      ((x.link s).state.state = .connected → (l.learn remote).state.state = .connected) ∧
      ((l.learn remote).state.remoteExchgFlags = exchgFlagCompleted →
        (l.learn remote).state.state = .connected) := by
    intro s l calls remote halloc hcomp
    obtain ⟨hholds, -, hgrows, -, c, hc⟩ := halloc.spec (hprov s).holds
    refine ⟨hgrows, fun hremote => ?_⟩
    exact (hholds.learn hc remote).connected_of_not_completes (Link.learn_connection hc remote)
      (Link.connectionExchgComplete_learn hholds hremote) hcomp
  intro t
  cases hs with
  | @stutter _ s calls hcalls =>
    rcases Side.eq_or_eq_other s t with rfl | rfl
    · exact (h t).act_self id (h t).remote (by simp)
    · exact (h s.other).act_other fun _ => id
  | @state _ s st hst =>
    rcases Side.eq_or_eq_other s t with rfl | rfl
    · have hgrows := (Link.Grows.sameExchange hst).connected
      refine (h t).act_self hgrows (fun hremote => hgrows ((h t).remote ?_)) (by simp)
      rw [← hst.remoteExchgFlags]
      exact hremote
    · exact (h s.other).act_other fun _ => id
  | @lose _ s remote rest hpending =>
    rcases Side.eq_or_eq_other s t with rfl | rfl
    · exact (h t).act_self id (h t).remote (by simp)
    · exact (h s.other).act_other (hmem hpending)
  | @duplicate _ s remote hpending =>
    rcases Side.eq_or_eq_other s t with rfl | rfl
    · exact (h t).act_self id (h t).remote (by simp)
    · refine (h s.other).act_other fun r hr => ?_
      rcases Multiset.mem_cons.mp hr with rfl | hr
      · exact hpending
      · exact hr
  | @create _ s l calls c halloc hc =>
    rcases Side.eq_or_eq_other s t with rfl | rfl
    · obtain ⟨-, hflags, hgrows, -⟩ := halloc.spec (hprov t).holds
      refine (h t).act_self hgrows (fun hremote => ?_) ?_
      · exact hgrows ((h t).remote (hflags ▸ hremote))
      · intro remote hr
        rw [Multiset.mem_singleton.mp hr]
        rfl
    · exact (h s.other).act_other fun _ => id
  | @opened _ s remote rest l calls c hpending halloc hc hcomp hident =>
    rcases Side.eq_or_eq_other s t with rfl | rfl
    · exact (h t).act_self (fun _ => rfl) (fun _ => rfl) (by simp)
    · exact (h s.other).act_other (hmem hpending)
  | @killed _ s remote rest l calls c hpending halloc hc hcomp hident =>
    rcases Side.eq_or_eq_other s t with rfl | rfl
    · exact (h t).act_self (fun _ => rfl) (fun _ => rfl) (by simp)
    · exact (h s.other).act_other (hmem hpending)
  | @answered _ s remote rest l calls c hpending halloc hc hcomp hneeds =>
    rcases Side.eq_or_eq_other s t with rfl | rfl
    · obtain ⟨hgrows, hremote⟩ := hlearn remote halloc hcomp
      refine (h t).act_self hgrows hremote fun r hr => ?_
      rw [Multiset.mem_singleton.mp hr]
      rfl
    · exact (h s.other).act_other (hmem hpending)
  | @silent _ s remote rest l calls hpending halloc hcomp hneeds =>
    rcases Side.eq_or_eq_other s t with rfl | rfl
    · obtain ⟨hgrows, hremote⟩ := hlearn remote halloc hcomp
      exact (h t).act_self hgrows hremote (by simp)
    · exact (h s.other).act_other (hmem hpending)
  | close | closeAgain => exact absurd rfl (hclose _)

/-- Both sides are connected. -/
def Done (x : Exchange) : Prop := ∀ s, (x.link s).state.state = .connected

/-- The packet opens the first connection. -/
def OpensFirst (x : Exchange) (s : Side) (remote : ConnectionExchgData) : Prop :=
  remote.header.exchgFlags = exchgFlagCompleted ∧
    (x.link s).state.state ≠ .connected ∧ (x.link s.other).state.state ≠ .connected

instance (x : Exchange) (s : Side) (remote : ConnectionExchgData) :
    Decidable (x.OpensFirst s remote) := by
  unfold OpensFirst
  infer_instance

/-- What is left when a side has handled exchange data: nothing was sent, and
the side is the first one to be connected; or an answer; or both sides are
connected. -/
theorem Step.connect_cases (hprov : ∀ t, Provenance p x t) (h : ∀ t, Acknowledged x t)
    {remote : ConnectionExchgData} (hs : Step p (.connect s remote) x x') :
    (x.OpensFirst s remote ∧ x.pending s = remote ::ₘ x'.pending s ∧
        x'.pending s.other = x.pending s.other ∧ x'.link s.other = x.link s.other) ∨
      (¬ x.OpensFirst s remote ∧ (x'.pending s.other ≠ 0 ∨ x'.Done)) := by
  have hflags : ∀ {l : Link} {calls : List Call},
      Link.Allocates (p s.other).ownNodeId (x.link s) l calls →
      ¬ (l.learn remote).Completes → remote.header.exchgFlags = exchgFlagCompleted →
      (x.link s).state.state = .connected := by
    intro l calls halloc hcomp hremote
    obtain ⟨hholds, -, -, hback, c, hc⟩ := halloc.spec (hprov s).holds
    exact hback ((hholds.learn hc remote).connected_of_not_completes
      (Link.learn_connection hc remote) (Link.connectionExchgComplete_learn hholds hremote) hcomp)
  cases hs with
  | @opened _ _ _ rest l calls c hpending halloc hc hcomp hident =>
    obtain ⟨-, -, hgrows, -, -⟩ := halloc.spec (hprov s).holds
    by_cases hother : (x.link s.other).state.state = .connected
    · refine Or.inr ⟨fun hfirst => hfirst.2.2 hother, Or.inr fun t => ?_⟩
      rcases Side.eq_or_eq_other s t with rfl | rfl
      · rw [act_link_self]
        rfl
      · rwa [act_link_other]
    · have hcreated : l.state.state = .created := hcomp.2
      have hremote := (ConnectionState.connectionExchgComplete_iff.mp hcomp.1).2
      refine Or.inl ⟨⟨hremote, fun hstate => ?_, hother⟩, ?_, ?_, ?_⟩
      · rw [hgrows hstate] at hcreated
        cases hcreated
      · rw [act_pending_self, hpending]
      · rw [act_pending_other, add_zero]
      · rw [act_link_other]
  | answered hpending halloc hc hcomp hneeds =>
    refine Or.inr ⟨fun hfirst => hfirst.2.1 (hflags halloc hcomp hfirst.1), Or.inl ?_⟩
    rw [act_pending_other, add_comm, Multiset.singleton_add]
    exact Multiset.cons_ne_zero
  | @silent _ _ _ rest l calls hpending halloc hcomp hneeds =>
    refine Or.inr ⟨fun hfirst => hfirst.2.1 (hflags halloc hcomp hfirst.1), Or.inr ?_⟩
    obtain ⟨hholds, -, -, -, c, hc⟩ := halloc.spec (hprov s).holds
    simp only [Link.NeedsAnswer, not_or, Bool.not_eq_false, ne_eq, not_not] at hneeds
    obtain ⟨hcomplete, hsame⟩ := hneeds
    intro t
    rcases Side.eq_or_eq_other s t with rfl | rfl
    · rw [act_link_self]
      exact (hholds.learn hc remote).connected_of_not_completes (Link.learn_connection hc remote)
        hcomplete hcomp
    · -- the sender knows both flags of this side, so it is connected
      rw [act_link_other]
      have hsent := (h s.other).sent
      rw [Side.other_other] at hsent
      refine hsent remote (hpending ▸ Multiset.mem_cons_self _ _) ?_
      rw [← hsame]
      exact (ConnectionState.connectionExchgComplete_iff.mp hcomplete).1

theorem Step.pending_create (hs : Step p (.create s) x x') : x'.pending s.other ≠ 0 := by
  cases hs with
  | create halloc hc =>
    rw [act_pending_other, add_comm, Multiset.singleton_add]
    exact Multiset.cons_ne_zero

theorem Step.pending_zero {label : Label} (hs : Step p label x x')
    (hcreate : ∀ s, label ≠ .create s) (h : ∀ t, x.pending t = 0) : ∀ t, x'.pending t = 0 := by
  have hact : ∀ {s : Side} {l : Link} {calls : List Call} (t : Side),
      (x.act s l (x.pending s) 0 calls).pending t = 0 := by
    intro s l calls t
    rcases Side.eq_or_eq_other s t with rfl | rfl
    · rw [act_pending_self, h]
    · rw [act_pending_other, h, add_zero]
  cases hs with
  | stutter | state | close | closeAgain => exact hact
  | create => exact absurd rfl (hcreate _)
  | duplicate hpending =>
    rw [h] at hpending
    cases hpending
  | lose hpending | opened hpending | killed hpending | answered hpending | silent hpending =>
    rw [h] at hpending
    exact absurd hpending.symm Multiset.cons_ne_zero

end Exchange

/-! ## Two managers -/

namespace Job

/-- Create and connect jobs. -/
def isExchange : Job → Bool
  | createConnection _ | connectConnection _ => true
  | closeConnection .. | discover | discovered .. => false

end Job

namespace ConnectionManager

variable {m m' : ConnectionManager} {env : Environment} {n : NodeId} {job : Job}

/-- No job takes another one off the queue. -/
theorem Dispatched.mem_jobQueue (hd : Dispatched env m job m') {j : Job} (hj : j ∈ m.jobQueue) :
    j ∈ m'.jobQueue := by
  obtain ⟨jobs, hq, -⟩ := hd.exists_jobQueue
  rw [hq]
  exact List.mem_append_left _ hj

/-- A connect job adds no job, or closes a zombie connection. -/
theorem Dispatched.jobQueue_connect {remote : ConnectionExchgData}
    (hd : Dispatched env m (.connectConnection remote) m') :
    m'.jobQueue = m.jobQueue ∨ ∃ j ∈ m'.jobQueue, j.isClose = true := by
  cases hd with
  | connectDropped => exact Or.inl rfl
  | @connect _ entry m₁ c hshutdown hinfo halloc hcreated hc =>
    rw [← halloc.jobQueue]
    unfold finishedOrAnswered
    split
    · split
      · refine Or.inr ⟨.closeConnection remote.header.nodeId true false, ?_, rfl⟩
        simp [killed]
      · exact Or.inl rfl
    · split
      · exact Or.inl rfl
      · exact Or.inl rfl

/-- Only a close job forgets a node. -/
theorem Dispatched.nodeInfo (hd : Dispatched env m job m') (hclose : job.isClose = false)
    (h : m.discoveryManager.nodeInfo n ≠ none) : m'.discoveryManager.nodeInfo n ≠ none := by
  cases hd with
  | createDropped | connectDropped | discoveredUnknown | discover => exact h
  | create hshutdown hinfo halloc hc =>
    rcases halloc with ⟨halloc, -⟩ | rfl
    · cases halloc with
      | kept => exact h
      | created => exact h
    · exact h
  | @connect remote entry m₁ c hshutdown hinfo halloc hcreated hc =>
    have hlearned : (m₁.learn remote).discoveryManager = m.discoveryManager := by
      cases halloc with
      | kept => rfl
      | created => rfl
    unfold finishedOrAnswered
    split
    · split
      · exact hlearned ▸ h
      · exact hlearned ▸ h
    · split
      · exact hlearned ▸ h
      · exact hlearned ▸ h
  | close | closeAgain => cases hclose
  | @discovered ipv4 k entry rest htake =>
    by_cases hk : n = k
    · simp [hk]
    · simpa [Function.update_of_ne hk] using h

theorem step_nodeInfo {a : Action} (hs : step m a = some m')
    (hclose : ∀ job ∈ m.jobQueue, job.isClose = false)
    (h : m.discoveryManager.nodeInfo n ≠ none) : m'.discoveryManager.nodeInfo n ≠ none := by
  cases a with
  | requestCreation | giveUpCreation | addJob | shutdown =>
    obtain rfl := Option.some.inj hs
    exact h
  | runJob env =>
    obtain ⟨job, jobQueue, hq, hd⟩ := step_runJob hs
    exact hd.nodeInfo (hclose job (hq ▸ List.mem_cons_self)) h

end ConnectionManager

namespace Pair

/-- No exchange packet is in flight and no create or connect job is queued. -/
def Quiescent (w : Pair) : Prop :=
  ∀ s, w.net s = [] ∧ ∀ job ∈ (w.node s).jobQueue, job.isExchange = false

/-- The pair when side `s` has taken a job and has `jobQueue` left. -/
def withQueue (w : Pair) (s : Side) (jobQueue : List Job) : Pair :=
  { w with node := Function.update w.node s { w.node s with jobQueue } }

variable (p : Side → Params) in
/-- The step does not open the first connection with the last packet: something
is left of the exchange beside it. -/
def KeepsExchange (w : Pair) : Action → Prop
  | .runJob s _ => ∀ remote jobQueue,
      (w.node s).jobQueue = .connectConnection remote :: jobQueue →
      (exchange p w).OpensFirst s remote → ¬ (w.withQueue s jobQueue).Quiescent
  | _ => True

instance (P : Side → Prop) [DecidablePred P] : Decidable (∀ s, P s) :=
  decidable_of_iff (P .a ∧ P .b)
    ⟨fun h s => match s with
      | .a => h.1
      | .b => h.2, fun h => ⟨h .a, h .b⟩⟩

instance (w : Pair) : Decidable w.Quiescent :=
  inferInstanceAs (Decidable (∀ s, w.net s = [] ∧
    ∀ job ∈ (w.node s).jobQueue, job.isExchange = false))

instance (p : Side → Params) (w : Pair) : ∀ a, Decidable (KeepsExchange p w a)
  | .runJob s _ =>
    match hq : (w.node s).jobQueue with
    | .connectConnection remote :: jobQueue =>
      decidable_of_iff ((exchange p w).OpensFirst s remote → ¬ (w.withQueue s jobQueue).Quiescent)
        ⟨fun h remote' jobQueue' hq' => by
            rw [hq, List.cons.injEq, Job.connectConnection.injEq] at hq'
            obtain ⟨rfl, rfl⟩ := hq'
            exact h, fun h => h remote jobQueue hq⟩
    | [] => isTrue fun _ _ hq' => by cases hq.symm.trans hq'
    | .createConnection _ :: _ => isTrue fun _ _ hq' => by cases hq.symm.trans hq'
    | .closeConnection .. :: _ => isTrue fun _ _ hq' => by cases hq.symm.trans hq'
    | .discover :: _ => isTrue fun _ _ hq' => by cases hq.symm.trans hq'
    | .discovered .. :: _ => isTrue fun _ _ hq' => by cases hq.symm.trans hq'
  | .requestCreation _ | .giveUpCreation _ | .addCreateJob _ | .closeConnection .. => isTrue trivial
  | .discoveryResp .. | .receive .. | .lose .. | .duplicate .. => isTrue trivial

/-- The action neither loses a packet nor closes a connection. -/
def Action.Lossless : Action → Prop
  | .lose .. | .closeConnection .. => False
  | _ => True

variable (p : Side → Params) in
/-- Side `s` has discovered the other one. -/
def Discovered (w : Pair) (s : Side) : Prop :=
  (w.node s).discoveryManager.nodeInfo (nodeId p s.other) ≠ none

variable (p : Side → Params) in
/-- The state of both connections is `e_StateConnected`. -/
def BothConnected (w : Pair) : Prop := ∀ s, (w.stateOf p s).state = .connected

variable {p : Side → Params} {w w' : Pair} {a : Action}

theorem Action.Lossless.not_closes (ha : a.Lossless) (s : Side) : ¬ a.Closes s := by
  cases a with
  | closeConnection => exact ha.elim
  | _ => exact id

theorem withQueue_self (w : Pair) (s : Side) : w.withQueue s (w.node s).jobQueue = w := by
  simp [withQueue]

theorem Quiescent.pending (h : w.Quiescent) (s : Side) : (exchange p w).pending s = 0 := by
  obtain ⟨hnet, hjobs⟩ := h s
  have hremotes : (w.node s).jobQueue.filterMap Job.remote? = [] := by
    refine List.filterMap_eq_nil_iff.mpr fun job hjob => ?_
    have hexchange := hjobs job hjob
    cases job with
    | connectConnection => cases hexchange
    | createConnection | closeConnection | discover | discovered => rfl
  simp [exchange, hnet, hremotes]

/-- When the pair is quiescent after a step of `s`, it was so before, but for
what `s` took. -/
theorem Quiescent.of_actNode {s : Side} {b : ConnectionManager.Action} {jobQueue : List Job}
    (hact : w.actNode s b = some w')
    (hjobs : ∀ m, (w.node s).step b = some m → ∀ job ∈ jobQueue, job ∈ m.jobQueue)
    (h : w'.Quiescent) : (w.withQueue s jobQueue).Quiescent := by
  obtain ⟨m, hm, rfl⟩ := actNode_eq_some hact
  have hself := h s
  have hother := h s.other
  simp only [Function.update_self, Function.update_of_ne (Side.ne_other s),
    Function.update_of_ne (Side.other_ne s), List.append_eq_nil_iff] at hself hother
  intro t
  rcases Side.eq_or_eq_other s t with rfl | rfl
  · simp only [withQueue, Function.update_self]
    exact ⟨hself.1, fun job hjob => hself.2 job (hjobs m hm job hjob)⟩
  · simp only [withQueue, Function.update_of_ne (Side.other_ne s)]
    exact ⟨hother.1.1, hother.2⟩

variable (p) in
/-- What holds of every run in which nothing is lost or closed. -/
structure Settling (w : Pair) : Prop where
  unclosed : Unclosed p w
  acknowledged : ∀ s, (exchange p w).Acknowledged s
  idle : w.createJobs = 0 → ∀ s, (exchange p w).pending s = 0

theorem settling_init : Settling p (init p) where
  unclosed := unclosed_init
  acknowledged s := exchange_init (p := p) ▸ Exchange.acknowledged_init s
  idle _ s := by
    rw [exchange_init]
    rfl

/-- The create jobs the action executes. -/
def Action.creates (w : Pair) : Action → Nat
  | .runJob s _ => if createsNext (w.node s) then 1 else 0
  | _ => 0

/-- In a step a node acts, or packets are lost or duplicated. -/
theorem step_acts (hs : step p w a = some w') :
    (∃ (v : Pair) (s : Side) (b : ConnectionManager.Action), v.node = w.node ∧
      v.createJobs = w.createJobs + a.creates w ∧ v.actNode s b = some w') ∨
      w'.node = w.node ∧ w'.createJobs = w.createJobs + a.creates w := by
  cases a with
  | requestCreation | giveUpCreation | addCreateJob | closeConnection | discoveryResp =>
    exact Or.inl ⟨w, _, _, rfl, rfl, hs⟩
  | runJob s env =>
    let v : Pair := { w with createJobs := w.createJobs + if createsNext (w.node s) then 1 else 0 }
    exact Or.inl ⟨v, s, .runJob env, rfl, rfl, hs⟩
  | receive s i =>
    simp only [step] at hs
    split at hs
    · cases hs
    · let v : Pair := { w with net := Function.update w.net s ((w.net s).eraseIdx i) }
      exact Or.inl ⟨v, s, _, rfl, rfl, hs⟩
  | lose s i =>
    simp only [step] at hs
    split at hs
    · obtain rfl := Option.some.inj hs
      exact Or.inr ⟨rfl, rfl⟩
    · cases hs
  | duplicate s i =>
    simp only [step] at hs
    split at hs
    · cases hs
    · obtain rfl := Option.some.inj hs
      exact Or.inr ⟨rfl, rfl⟩

theorem createJobs_step (hs : step p w a = some w') :
    w'.createJobs = w.createJobs + a.creates w := by
  rcases step_acts hs with ⟨v, s, b, -, hcount, hact⟩ | ⟨-, hcount⟩
  · obtain ⟨m, -, rfl⟩ := actNode_eq_some hact
    exact hcount
  · exact hcount

theorem Labelled.create {s : Side} (h : Labelled (p := p) w a (.create s)) :
    a.creates w = 1 := by
  cases a with
  | runJob t env =>
    obtain ⟨job, jobQueue, hq, hlabel⟩ := h
    cases job with
    | createConnection n =>
      rcases hlabel with hlabel | ⟨hlabel, -⟩
      · cases hlabel
        simp [Action.creates, createsNext, hq]
      · cases hlabel
    | connectConnection remote => simp [Job.Labelled] at hlabel
    | closeConnection | discover | discovered => cases hlabel
  | _ => cases h

theorem Settling.step (h : Settling p w) (ha : a.Lossless) (hs : Pair.step p w a = some w') :
    Settling p w' := by
  obtain ⟨-, label, hx, hlabel⟩ := step_exchange h.unclosed.addressed hs
  have hcount := createJobs_step hs
  refine ⟨(h.unclosed.step ha.not_closes hs).1, ?_, fun hzero => ?_⟩
  · exact Exchange.Acknowledged.step h.unclosed.provenance h.acknowledged hx
      fun s => hlabel.not_close (h.unclosed.noClose s)
  · refine hx.pending_zero (fun s hcreate => ?_) (h.idle (by omega))
    subst hcreate
    have hone := hlabel.create
    omega

/-! ## Nothing stops early -/

variable (p) in
/-- Both nodes know each other; once a create job was executed, something is
left of the exchange until both are connected. -/
structure Live (w : Pair) : Prop extends Settling p w where
  discovered : ∀ s, w.Discovered p s
  goes : w.createJobs ≠ 0 → w.Quiescent → w.BothConnected p

/-- Each node does one step at most. -/
theorem step_node (hs : Pair.step p w a = some w') (t : Side) :
    w'.node t = w.node t ∨
      ∃ b m, (w.node t).step b = some m ∧ w'.node t = { m with sent := [] } := by
  rcases step_acts hs with ⟨v, s, b, hnode, -, hact⟩ | ⟨hnode, -⟩
  · obtain ⟨m, hm, rfl⟩ := actNode_eq_some hact
    rw [hnode] at hm
    rcases Side.eq_or_eq_other s t with rfl | rfl
    · exact Or.inr ⟨b, m, hm, Function.update_self ..⟩
    · exact Or.inl (by simp [hnode])
  · exact Or.inl (congrFun hnode t)

theorem discovered_step (h : Settling p w) (hs : Pair.step p w a = some w') (t : Side)
    (hd : w.Discovered p t) : w'.Discovered p t := by
  unfold Discovered at hd ⊢
  rcases step_node hs t with hsame | ⟨b, m, hm, hnode⟩
  · rwa [hsame]
  · have hinfo := ConnectionManager.step_nodeInfo hm (h.unclosed.noClose t) hd
    rw [hnode]
    exact hinfo

/-- A step that only adds jobs or packets leaves something of the exchange where
there was something. -/
theorem quiescent_step (ha : a.Lossless) (hs : Pair.step p w a = some w')
    (hrun : ∀ s env, a ≠ .runJob s env) (h : w'.Quiescent) : w.Quiescent := by
  have hact : ∀ {s : Side} {b : ConnectionManager.Action}, w.actNode s b = some w' →
      (∀ m, (w.node s).step b = some m → ∀ job ∈ (w.node s).jobQueue, job ∈ m.jobQueue) →
      w.Quiescent := by
    intro s b hact hjobs
    have hq := h.of_actNode hact hjobs
    rwa [withQueue_self] at hq
  have hadd : ∀ {m m' : ConnectionManager} {job : Job}, m.step (.addJob job) = some m' →
      ∀ j ∈ m.jobQueue, j ∈ m'.jobQueue := by
    intro m m' job hm j hj
    obtain rfl := Option.some.inj hm
    exact List.mem_append_left _ hj
  cases a with
  | requestCreation s | giveUpCreation s =>
    refine hact hs fun m hm job hjob => ?_
    obtain rfl := Option.some.inj hm
    exact hjob
  | addCreateJob s | discoveryResp s => exact hact hs fun m hm => hadd hm
  | closeConnection | lose => exact ha.elim
  | runJob s env => exact absurd rfl (hrun s env)
  | receive s i =>
    simp only [step] at hs
    split at hs
    · cases hs
    · next remote _ =>
      -- the connect job is queued
      obtain ⟨m, hm, rfl⟩ := actNode_eq_some hs
      obtain rfl := Option.some.inj hm
      have hjob := (h s).2 (.connectConnection remote) (by simp)
      cases hjob
  | duplicate s i =>
    simp only [step] at hs
    split at hs
    · cases hs
    · obtain rfl := Option.some.inj hs
      have hnet := (h s).1
      simp at hnet

theorem bothConnected_step (h : Settling p w) (ha : a.Lossless)
    (hs : Pair.step p w a = some w') (hboth : w.BothConnected p) : w'.BothConnected p :=
  fun s => ((h.unclosed.step ha.not_closes hs).2 s).connected (hboth s)

/-- Taking a job that is not part of the exchange changes nothing. -/
theorem quiescent_of_withQueue {s : Side} {job : Job} {jobQueue : List Job}
    (hq : (w.node s).jobQueue = job :: jobQueue) (hjob : job.isExchange = false)
    (h : (w.withQueue s jobQueue).Quiescent) : w.Quiescent := by
  intro t
  have ht := h t
  rcases Side.eq_or_eq_other s t with rfl | rfl
  · simp only [withQueue, Function.update_self] at ht
    refine ⟨ht.1, fun j hj => ?_⟩
    rw [hq] at hj
    rcases List.mem_cons.mp hj with rfl | hj
    · exact hjob
    · exact ht.2 j hj
  · simpa only [withQueue, Function.update_of_ne (Side.other_ne s)] using ht

/-- What is left of a queue after its head was run. -/
theorem quiescent_runJob {s : Side} {env : Environment} {job : Job} {jobQueue : List Job}
    (hs : Pair.step p w (.runJob s env) = some w') (hq : (w.node s).jobQueue = job :: jobQueue)
    (h : w'.Quiescent) : (w.withQueue s jobQueue).Quiescent := by
  have hjobs : ∀ m, (w.node s).step (.runJob env) = some m → ∀ j ∈ jobQueue, j ∈ m.jobQueue := by
    intro m hm j hj
    obtain ⟨job', jobQueue', hq', hd⟩ := ConnectionManager.step_runJob hm
    rw [hq, List.cons.injEq] at hq'
    obtain ⟨rfl, rfl⟩ := hq'
    exact hd.mem_jobQueue hj
  let v : Pair := { w with createJobs := w.createJobs + if createsNext (w.node s) then 1 else 0 }
  have hact : v.actNode s (.runJob env) = some w' := hs
  exact fun t => h.of_actNode hact hjobs t

theorem Live.step (h : Live p w) (ha : a.Lossless) (hkeeps : KeepsExchange p w a)
    (hs : Pair.step p w a = some w') : Live p w' := by
  have hsettling := h.toSettling.step ha hs
  refine ⟨hsettling, fun t => discovered_step h.toSettling hs t (h.discovered t), ?_⟩
  intro hcount hquiet
  have hcreates := createJobs_step hs
  -- where nothing of the exchange was left before, nothing has changed
  have hbefore : a.creates w = 0 → w.Quiescent → w'.BothConnected p := fun hzero hq =>
    bothConnected_step h.toSettling ha hs (h.goes (by omega) hq)
  obtain ⟨-, label, hx, hlabel⟩ := step_exchange h.unclosed.addressed hs
  cases a with
  | runJob s env =>
    obtain ⟨job, jobQueue, hq, hlabel⟩ := hlabel
    have hrest := quiescent_runJob hs hq hquiet
    cases job with
    | createConnection n =>
      rcases hlabel with rfl | ⟨-, hnot⟩
      · exact absurd (hquiet.pending s.other) hx.pending_create
      · exact absurd (h.discovered s) hnot
    | connectConnection remote =>
      rcases hlabel with rfl | rfl | ⟨-, hnot⟩
      · rcases hx.connect_cases h.unclosed.provenance h.acknowledged with
          ⟨hfirst, -⟩ | ⟨-, hpending | hdone⟩
        · exact absurd hrest (hkeeps remote jobQueue hq hfirst)
        · exact absurd (hquiet.pending s.other) hpending
        · exact hdone
      · exact absurd hx (Exchange.Provenance.not_kill h.unclosed.provenance)
      · exact absurd (h.discovered s) hnot
    | closeConnection n force shutdown =>
      have hopen := h.unclosed.noClose s _ (hq ▸ List.mem_cons_self)
      cases hopen
    | discover | discovered =>
      exact hbefore (by simp [Action.creates, createsNext, hq])
        (quiescent_of_withQueue hq rfl hrest)
  | closeConnection | lose => exact ha.elim
  | requestCreation | giveUpCreation | addCreateJob | discoveryResp | receive | duplicate =>
    exact hbefore rfl (quiescent_step ha hs (fun _ _ h => by cases h) hquiet)

/-- Nothing is left after the last packet has opened a connection. -/
theorem quiescent_of_opened {s : Side} {env : Environment} {remote : ConnectionExchgData}
    {jobQueue : List Job} (hs : Pair.step p w (.runJob s env) = some w')
    (hq : (w.node s).jobQueue = .connectConnection remote :: jobQueue)
    (hw' : Unclosed p w') (hquiet : (w.withQueue s jobQueue).Quiescent)
    (hself : (exchange p w).pending s = remote ::ₘ (exchange p w').pending s)
    (hother : (exchange p w').pending s.other = (exchange p w).pending s.other) :
    w'.Quiescent := by
  have hrest : (w.net s : Multiset ConnectionExchgData) + jobQueue.filterMap Job.remote? = 0 := by
    simpa [exchange, withQueue] using hquiet.pending (p := p) s
  have hself' : (exchange p w').pending s = 0 := by
    have hhead : (exchange p w).pending s = remote ::ₘ 0 := by
      rw [pending_of_head hq, hrest, add_zero]
      rfl
    exact ((Multiset.cons_inj_right remote).mp (hhead.symm.trans hself)).symm
  have hother' : (exchange p w').pending s.other = 0 := by
    rw [hother]
    simpa [exchange, withQueue] using hquiet.pending (p := p) s.other
  have hnet : ∀ {t}, (exchange p w').pending t = 0 → w'.net t = [] := by
    intro t hzero
    have happend : w'.net t ++ (w'.node t).jobQueue.filterMap Job.remote? = [] :=
      (Multiset.coe_eq_zero _).mp ((Multiset.coe_add _ _).symm.trans hzero)
    exact (List.append_eq_nil_iff.mp happend).1
  have hact : ({ w with createJobs := w.createJobs + if createsNext (w.node s) then 1 else 0 } :
      Pair).actNode s (.runJob env) = some w' := hs
  obtain ⟨m, hm, hw⟩ := actNode_eq_some hact
  have hnode : w'.node s = { m with sent := [] } := by
    rw [hw]
    exact Function.update_self ..
  have hnode' : w'.node s.other = w.node s.other := by
    rw [hw]
    exact Function.update_of_ne (Side.other_ne s) ..
  have hqueue : m.jobQueue = jobQueue := by
    obtain ⟨job, jobQueue', hq', hd⟩ := ConnectionManager.step_runJob hm
    rw [hq, List.cons.injEq] at hq'
    obtain ⟨rfl, rfl⟩ := hq'
    rcases hd.jobQueue_connect with hsame | ⟨j, hj, hclose⟩
    · exact hsame
    · have hopen := hw'.noClose s j (by rw [hnode]; exact hj)
      rw [hclose] at hopen
      cases hopen
  intro t
  have hjobs := (hquiet t).2
  rcases Side.eq_or_eq_other s t with rfl | rfl
  · refine ⟨hnet hself', ?_⟩
    rw [hnode]
    simpa [withQueue, hqueue] using hjobs
  · refine ⟨hnet hother', ?_⟩
    rw [hnode']
    simpa [withQueue] using hjobs

/-- A step that opens the first connection with the last packet leaves a
quiescent pair, with only that side connected. -/
theorem keepsExchange_of_goes (h : Live p w) (ha : a.Lossless) (hs : Pair.step p w a = some w')
    (hgoes : w'.createJobs ≠ 0 → w'.Quiescent → w'.BothConnected p) : KeepsExchange p w a := by
  cases a with
  | runJob s env =>
    intro remote jobQueue hq hfirst hquiet
    have hunclosed := (h.unclosed.step ha.not_closes hs).1
    obtain ⟨-, label, hx, job, jobQueue', hq', hlabel⟩ := step_exchange h.unclosed.addressed hs
    rw [hq, List.cons.injEq] at hq'
    obtain ⟨rfl, rfl⟩ := hq'
    obtain rfl : label = .connect s remote := by
      rcases hlabel with hlabel | rfl | ⟨-, hnot⟩
      · exact hlabel
      · exact absurd hx (Exchange.Provenance.not_kill h.unclosed.provenance)
      · exact absurd (h.discovered s) hnot
    rcases hx.connect_cases h.unclosed.provenance h.acknowledged with
      ⟨-, hself, hother, hlink⟩ | ⟨hnot, -⟩
    · have hcount : w.createJobs ≠ 0 := fun hzero => by
        rw [h.idle hzero s] at hself
        exact absurd hself.symm Multiset.cons_ne_zero
      have hboth : w'.BothConnected p :=
        hgoes (by have := createJobs_step hs; omega) (quiescent_of_opened hs hq hunclosed hquiet
          hself hother)
      have hconnected : ((exchange p w').link s.other).state.state = .connected := hboth s.other
      rw [hlink] at hconnected
      exact hfirst.2.2 hconnected
    · exact hnot hfirst
  | _ => trivial

/-- **Quiescence of the handshake**: from a state in which both nodes know each
other and no create job was executed yet, all along a run in which nothing is
lost or closed. -/
theorem quiescent_connected_iff {ds as : List Action} {w₀ : Pair}
    (h₀ : Lts.exec (step p) (init p) ds = some w₀) (hd : ∀ s, w₀.Discovered p s)
    (hzero : w₀.createJobs = 0) (hl : ∀ a ∈ ds ++ as, a.Lossless)
    (h : Lts.exec (step p) w₀ as = some w) :
    (∀ bs, bs <+: as → ∀ v, Lts.exec (step p) w₀ bs = some v →
        v.createJobs ≠ 0 → v.Quiescent → v.BothConnected p) ↔
      Lts.Along (step p) (KeepsExchange p) w₀ as := by
  have hsettling : Settling p w₀ :=
    Lts.exec_invariant_along (P := fun _ a => a.Lossless) (fun _ _ _ hi ha hs => hi.step ha hs)
      settling_init (Lts.along_of_forall_mem (fun a ha => hl a (List.mem_append_left _ ha)) _) h₀
  exact Lts.forall_prefix_iff_along_of_mem (A := Action.Lossless) (I := Live p)
    (Q := fun v => v.createJobs ≠ 0 → v.Quiescent → v.BothConnected p)
    (fun _ hv => hv.goes) (fun _ _ _ ha hv hkeeps hs => hv.step ha hkeeps hs)
    (fun _ _ _ ha hv hs hgoes => keepsExchange_of_goes hv ha hs hgoes)
    (fun a ha => hl a (List.mem_append_right _ ha)) ⟨hsettling, hd, fun hne => absurd hzero hne⟩ h

/-! ### One side creates, or both -/

/-- After the discovery each node knows the other, and nothing was created. -/
theorem exampleDiscovery_discovers :
    ∃ w₀, Lts.exec (step exampleParams) (init exampleParams) exampleDiscovery = some w₀ ∧
      (∀ s, w₀.Discovered exampleParams s) ∧ w₀.createJobs = 0 := by
  have hrun : (Lts.exec (step exampleParams) (init exampleParams) exampleDiscovery).map
      (fun w => (w.createJobs, ((w.node .a).discoveryManager.nodeInfo 2).isSome,
        ((w.node .b).discoveryManager.nodeInfo 1).isSome)) = some (0, true, true) := by
    decide +kernel
  obtain ⟨w₀, hw₀, h⟩ := Option.map_eq_some_iff.mp hrun
  simp only [Prod.mk.injEq, Option.isSome_iff_ne_none] at h
  exact ⟨w₀, hw₀, fun s => match s with
    | .a => h.2.1
    | .b => h.2.2, h.1⟩

/-- Node a creates the connection, and every packet is handled: b is connected
and a is not. -/
theorem handshake_stuck :
    ∃ w₀ w, Lts.exec (step exampleParams) (init exampleParams) exampleDiscovery = some w₀ ∧
      (∀ s, w₀.Discovered exampleParams s) ∧ w₀.createJobs = 0 ∧
      Lts.exec (step exampleParams) w₀ exampleCreation = some w ∧
      (∀ a ∈ exampleDiscovery ++ exampleCreation, a.Lossless) ∧
      w.createJobs = 1 ∧ w.Quiescent ∧
      (w.stateOf exampleParams .a).state = .created ∧
      (w.stateOf exampleParams .b).state = .connected := by
  obtain ⟨w₀, hw₀, hd, hzero⟩ := exampleDiscovery_discovers
  have hrun : (Lts.exec (step exampleParams) (init exampleParams)
      (exampleDiscovery ++ exampleCreation)).map (fun w =>
        (w.createJobs, decide w.Quiescent, (w.stateOf exampleParams .a).state,
          (w.stateOf exampleParams .b).state)) = some (1, true, .created, .connected) := by
    decide +kernel
  obtain ⟨w, hw, h⟩ := Option.map_eq_some_iff.mp hrun
  simp only [Prod.mk.injEq, decide_eq_true_eq] at h
  obtain ⟨v, hv, hw⟩ := Lts.exec_append_eq_some.mp hw
  obtain rfl : w₀ = v := Option.some.inj (hw₀.symm.trans hv)
  refine ⟨w₀, w, hw₀, hd, hzero, hw, ?_, h⟩
  simp [exampleDiscovery, exampleCreation, Action.Lossless]

/-- Both nodes create, and one packet is on its way each time. -/
def exampleBothCreate : List Action :=
  [.requestCreation .a, .addCreateJob .a, .runJob .a (exampleEnvironment 7),
    .requestCreation .b, .addCreateJob .b, .runJob .b (exampleEnvironment 9),
    .receive .b 0, .runJob .b {}, .receive .a 0, .runJob .a {}, .receive .a 0, .runJob .a {},
    .receive .b 0, .runJob .b {}, .receive .b 0, .runJob .b {}, .receive .a 0, .runJob .a {}]

theorem quiescent_connected_both :
    ∃ w₀ w, Lts.exec (step exampleParams) w₀ exampleBothCreate = some w ∧
      w.createJobs = 2 ∧ w.Quiescent ∧ w.BothConnected exampleParams := by
  obtain ⟨w₀, hw₀, hd, hzero⟩ := exampleDiscovery_discovers
  have hrun : (Lts.exec (step exampleParams) (init exampleParams)
      (exampleDiscovery ++ exampleBothCreate)).map (fun w =>
        (w.createJobs, decide w.Quiescent)) = some (2, true) := by
    decide +kernel
  obtain ⟨w, hw, h⟩ := Option.map_eq_some_iff.mp hrun
  simp only [Prod.mk.injEq, decide_eq_true_eq] at h
  obtain ⟨v, hv, hw⟩ := Lts.exec_append_eq_some.mp hw
  obtain rfl : w₀ = v := Option.some.inj (hw₀.symm.trans hv)
  have halong : Lts.Along (step exampleParams) (KeepsExchange exampleParams) (init exampleParams)
      (exampleDiscovery ++ exampleBothCreate) := by
    decide +kernel
  have hl : ∀ a ∈ exampleDiscovery ++ exampleBothCreate, a.Lossless := by
    simp [exampleDiscovery, exampleBothCreate, Action.Lossless]
  have hconnected := (quiescent_connected_iff hw₀ hd hzero hl hw).mpr
    ((Lts.along_append.mp halong).2 w₀ hw₀)
  exact ⟨w₀, w, hw, h.1, h.2,
    hconnected _ (List.prefix_refl _) w hw (by omega) h.2⟩

end Pair

end Ibdxnet.Con
