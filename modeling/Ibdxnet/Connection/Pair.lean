import Ibdxnet.Connection.Exchange

/-!
# Two connection managers and the network between them

Each node runs its own connection manager; what one hands to its exchange
manager is on its way to the other until it is received, which queues a connect
job, or lost.  Datagrams are delivered in any order, and may be duplicated.

Every step of the pair is a step of the `Exchange` of the links the two
managers have to each other (`Pair.step_exchange`), as long as every job and
datagram is about the other node (`Pair.Addressed`), which is so from the start.
-/

namespace Ibdxnet.Con

open ConnectionManager (Params Dispatched)

structure Pair where
  node : Side → ConnectionManager
  /-- datagrams on their way to a side -/
  net : Side → List ConnectionExchgData
  /-- create jobs executed so far -/
  createJobs : Nat

namespace Pair

inductive Action
  | requestCreation (s : Side)
  | giveUpCreation (s : Side)
  | addCreateJob (s : Side)
  | closeConnection (s : Side) (force shutdown : Bool)
  /-- the other node answers a discovery request -/
  | discoveryResp (s : Side) (sourceIPV4 : UInt32)
  /-- the datagram at `i` is received and its connect job queued -/
  | receive (s : Side) (i : Nat)
  | lose (s : Side) (i : Nat)
  | duplicate (s : Side) (i : Nat)
  | runJob (s : Side) (env : Environment)

section
variable (p : Side → Params)

/-- The id of the node on a side. -/
abbrev nodeId (s : Side) : NodeId := (p s).ownNodeId

/-- A step of one node; what it sends is on its way to the other node. -/
def actNode (w : Pair) (s : Side) (a : ConnectionManager.Action) : Option Pair :=
  ((w.node s).step a).map fun m =>
    { w with
      node := Function.update w.node s { m with sent := [] }
      net := Function.update w.net s.other (w.net s.other ++ m.sent.map Prod.snd) }

/-- The job at the head of a queue is a create job. -/
def createsNext (m : ConnectionManager) : Bool :=
  match m.jobQueue with
  | .createConnection _ :: _ => true
  | _ => false

def step (w : Pair) : Action → Option Pair
  | .requestCreation s => w.actNode s (.requestCreation (nodeId p s.other))
  | .giveUpCreation s => w.actNode s (.giveUpCreation (nodeId p s.other))
  | .addCreateJob s => w.actNode s (.addJob (.createConnection (nodeId p s.other)))
  | .closeConnection s force shutdown =>
    w.actNode s (.addJob (.closeConnection (nodeId p s.other) force shutdown))
  | .discoveryResp s sourceIPV4 =>
    w.actNode s (.addJob (.discovered sourceIPV4 (nodeId p s.other)))
  | .receive s i =>
    match (w.net s)[i]? with
    | none => none
    | some remote =>
      { w with net := Function.update w.net s ((w.net s).eraseIdx i) }.actNode s
        (.addJob (.connectConnection remote))
  | .lose s i =>
    if i < (w.net s).length then
      some { w with net := Function.update w.net s ((w.net s).eraseIdx i) }
    else none
  | .duplicate s i =>
    match (w.net s)[i]? with
    | none => none
    | some remote => some { w with net := Function.update w.net s (remote :: w.net s) }
  | .runJob s env =>
    { w with createJobs := w.createJobs + if createsNext (w.node s) then 1 else 0 }.actNode s
      (.runJob env)

def init : Pair where
  node := fun s => .new (p s)
  net := fun _ => []
  createJobs := 0

end

end Pair

/-! ## What a job does to the link -/

namespace Job

/-- The exchange data a queued job handles. -/
def remote? : Job → Option ConnectionExchgData
  | connectConnection remote => some remote
  | _ => none

/-- The job is about node `n`, if it is about a node. -/
def About (n : NodeId) : Job → Prop
  | createConnection targetNodeId => targetNodeId = n
  | connectConnection remote => remote.header.nodeId = n
  | closeConnection nodeId _ _ => nodeId = n
  | discover => True
  | discovered _ nodeIdDiscovered => nodeIdDiscovered = n

def isClose : Job → Bool
  | closeConnection _ _ _ => true
  | _ => false

/-- What a step of the exchange can be that runs the job on side `s`. -/
def Labelled (discovered : Prop) (s : Side) : Job → Exchange.Label → Prop
  | .createConnection _, label => label = .create s ∨ label = .stutter ∧ ¬ discovered
  | .connectConnection remote, label =>
    label = .connect s remote ∨ label = .kill s ∨ label = .lose s ∧ ¬ discovered
  | .closeConnection _ _ _, label => label = .close s
  | .discover, label => label = .stutter
  | .discovered _ _, label => label = .stutter

end Job

namespace ConnectionManager

/-- The parameters the manager was constructed with. -/
structure Runs (m : ConnectionManager) (p : Params) : Prop where
  ownNodeId : m.ownNodeId = p.ownNodeId
  connectionCtxIdent : m.connectionCtxIdent = p.connectionCtxIdent
  lid : m.lid = p.lid
  listener : m.listener = p.listener
  discoveryListener : m.discoveryListener = p.discoveryListener

section
variable {m m' : ConnectionManager} {p : Params} {env : Environment} {n : NodeId}

theorem Allocates.runs (h : Allocates env n m m') (hm : m.Runs p) : m'.Runs p := by
  cases h with
  | kept hc => exact hm
  | created hc hid hqp => exact ⟨hm.1, hm.2, hm.3, hm.4, hm.5⟩

theorem runs_finishedOrAnswered {remote : ConnectionExchgData} {c : Connection} {ipv4 : UInt32}
    (hm : m.Runs p) : (m.finishedOrAnswered remote c ipv4).Runs p := by
  unfold finishedOrAnswered
  split
  · split <;> exact ⟨hm.1, hm.2, hm.3, hm.4, hm.5⟩
  · split <;> exact ⟨hm.1, hm.2, hm.3, hm.4, hm.5⟩

theorem Dispatched.runs {job : Job} (h : Dispatched env m job m') (hm : m.Runs p) :
    m'.Runs p := by
  cases h with
  | createDropped | connectDropped | discoveredUnknown => exact hm
  | discover | discovered | close | closeAgain => exact ⟨hm.1, hm.2, hm.3, hm.4, hm.5⟩
  | create hshutdown hinfo halloc hc =>
    rcases halloc with ⟨halloc, -⟩ | rfl
    · have hm₁ := halloc.runs hm
      exact ⟨hm₁.1, hm₁.2, hm₁.3, hm₁.4, hm₁.5⟩
    · exact ⟨hm.1, hm.2, hm.3, hm.4, hm.5⟩
  | connect hshutdown hinfo halloc hcreated hc =>
    have hm₁ := halloc.runs hm
    exact runs_finishedOrAnswered ⟨hm₁.1, hm₁.2, hm₁.3, hm₁.4, hm₁.5⟩

/-- What a manager hands on is about the other node, and says who sent it. -/
structure Outgoing (m : ConnectionManager) (n : NodeId) : Prop where
  running : m.flagShutdown = false
  jobs : ∀ job ∈ m.jobQueue, job.About n
  sent : ∀ e ∈ m.sent, e.2.header.nodeId = m.ownNodeId

theorem Outgoing.allocates (ho : m.Outgoing n) {k : NodeId} (h : Allocates env k m m') :
    m'.Outgoing n := by
  cases h with
  | kept hc => exact ho
  | created hc hid hqp => exact ⟨ho.1, ho.2, ho.3⟩

theorem Outgoing.answered (ho : m.Outgoing n) (k : NodeId) (c : Connection) (ipv4 : UInt32) :
    (m.answered k c ipv4).Outgoing n := by
  refine ⟨ho.running, ho.jobs, fun e he => ?_⟩
  rcases List.mem_append.mp he with he | he
  · exact ho.sent e he
  · rw [List.mem_singleton] at he
    rw [he]
    rfl

theorem Outgoing.finishedOrAnswered (ho : m.Outgoing n) {remote : ConnectionExchgData}
    {c : Connection} {ipv4 : UInt32} (hn : remote.header.nodeId = n) :
    (m.finishedOrAnswered remote c ipv4).Outgoing n := by
  unfold ConnectionManager.finishedOrAnswered
  split
  · split
    · refine ⟨ho.running, fun job hjob => ?_, ho.sent⟩
      rcases List.mem_append.mp hjob with hjob | hjob
      · exact ho.jobs job hjob
      · rw [List.mem_cons, List.mem_singleton] at hjob
        rcases hjob with rfl | rfl
        · exact hn
        · exact hn
    · exact ⟨ho.1, ho.2, ho.3⟩
  · split
    · exact ho.answered _ _ _
    · exact ho

theorem Outgoing.dispatched (ho : m.Outgoing n) {job : Job} (h : Dispatched env m job m')
    (habout : job.About n) : m'.Outgoing n := by
  cases h with
  | createDropped | connectDropped | discoveredUnknown => exact ho
  | discover | discovered | closeAgain => exact ⟨ho.1, ho.2, ho.3⟩
  | create hshutdown hinfo halloc hc =>
    rcases halloc with ⟨halloc, -⟩ | rfl
    · exact (ho.allocates halloc).answered _ _ _
    · exact ho.answered _ _ _
  | @connect remote entry m₁ c hshutdown hinfo halloc hcreated hc =>
    have ho₁ := ho.allocates halloc
    have ho₂ : (m₁.learn remote).Outgoing n := ⟨ho₁.1, ho₁.2, ho₁.3⟩
    exact ho₂.finishedOrAnswered habout
  | @close k force shutdown c hc =>
    refine ⟨ho.running, fun job hjob => ?_, ho.sent⟩
    cases shutdown with
    | true => exact ho.jobs job hjob
    | false =>
      rcases List.mem_append.mp hjob with hjob | hjob
      · exact ho.jobs job hjob
      · rw [List.mem_singleton] at hjob
        rw [hjob]
        trivial

/-- Allocation, seen from the link. -/
theorem Allocates.link (h : Allocates env n m m') :
    ∃ calls, Link.Allocates n (m.link n) (m'.link n) calls ∧ m'.calls = m.calls ++ calls ∧
      m'.jobQueue = m.jobQueue ∧ m'.sent = m.sent := by
  cases h with
  | kept hc => exact ⟨[], .kept hc, (List.append_nil _).symm, rfl, rfl⟩
  | @created connectionId qp hc hid hqp =>
    have hlink : (m.allocated n connectionId qp).link n = (m.link n).allocate connectionId qp :=
      link_setLink_self ..
    exact ⟨[.createConnection n qp], hlink ▸ .created hc, rfl, rfl, rfl⟩

theorem link_learn (m : ConnectionManager) (remote : ConnectionExchgData) :
    (m.learn remote).link remote.header.nodeId =
      (m.link remote.header.nodeId).learn remote :=
  link_setLink_self ..

theorem calls_learn (m : ConnectionManager) (remote : ConnectionExchgData) :
    (m.learn remote).calls =
      m.calls ++ (m.link remote.header.nodeId).learnCalls remote.header.nodeId remote := by
  by_cases hset : (m.connectionStates remote.header.nodeId).isConnectedToRemote = true
  · simp [learn, Link.learnCalls, hset]
  · simp [learn, Link.learnCalls, hset]

theorem exchgData_link (hm : m.Runs p) (n : NodeId) (c : Connection) :
    m.exchgData n c = (m.link n).exchgData p c := by
  simp [exchgData, Link.exchgData, hm.ownNodeId, hm.lid, hm.connectionCtxIdent]

variable {p : Side → Params} {x : Exchange} {s : Side}

/-- The end of a connect job, seen from the exchange. -/
theorem step_finishedOrAnswered {remote : ConnectionExchgData} {c : Connection} (ipv4 : UInt32)
    {rest : Multiset ConnectionExchgData} {l : Link} {calls : List Call} (hm : m.Runs (p s))
    (hn : remote.header.nodeId = (p s.other).ownNodeId) (hsent : m.sent = [])
    (hpending : x.pending s = remote ::ₘ rest)
    (halloc : Link.Allocates (p s.other).ownNodeId (x.link s) l calls)
    (hlink : m.link remote.header.nodeId = l.learn remote)
    (hc : m.connections remote.header.nodeId = some c) :
    ∃ label opened, (m.finishedOrAnswered remote c ipv4).calls = m.calls ++ opened ∧
      (m.finishedOrAnswered remote c ipv4).jobQueue.filterMap Job.remote? =
        m.jobQueue.filterMap Job.remote? ∧
      Exchange.Step p label x
        (x.act s ((m.finishedOrAnswered remote c ipv4).link remote.header.nodeId) rest
          ((m.finishedOrAnswered remote c ipv4).sent.map Prod.snd)
          (calls ++ l.learnCalls (p s.other).ownNodeId remote ++ opened)) ∧
      (label = .connect s remote ∧
        (m.finishedOrAnswered remote c ipv4).jobQueue = m.jobQueue ∨ label = .kill s) := by
  have hc' : (l.learn remote).connection = some c := hlink ▸ hc
  have hcompletes : m.Completes remote.header.nodeId ↔ (l.learn remote).Completes := by
    rw [← hlink]
    rfl
  have hneeds : m.NeedsAnswer remote ↔ (l.learn remote).NeedsAnswer remote := by
    rw [← hlink]
    rfl
  unfold finishedOrAnswered
  by_cases hcomp : m.Completes remote.header.nodeId
  · by_cases hident : c.getRemoteConnectionManIdent ≠ remote.header.conManIdent
    · rw [if_pos hcomp, if_pos hident]
      refine ⟨.kill s, [], by simp [killed], by simp [killed, Job.remote?], ?_, Or.inr rfl⟩
      have hkill : (m.killed remote.header.nodeId).link remote.header.nodeId =
          (l.learn remote).killed := by
        rw [← hlink]
        exact link_setLink_self ..
      rw [hkill, List.append_nil]
      simp only [killed, setLink_sent, hsent, List.map_nil, Multiset.coe_nil]
      exact .killed hpending halloc hc' (hcompletes.mp hcomp) hident
    · rw [if_pos hcomp, if_neg hident]
      refine ⟨.connect s remote, Link.openedCalls (p s.other).ownNodeId (p s).listener, ?_, rfl, ?_,
        Or.inl ⟨rfl, rfl⟩⟩
      · rw [← hm.listener, ← hn]
        rfl
      have hopen : (m.opened remote.header.nodeId).link remote.header.nodeId =
          (l.learn remote).opened := by
        rw [← hlink]
        exact link_setLink_self ..
      rw [hopen]
      simp only [opened, setLink_sent, hsent, List.map_nil, Multiset.coe_nil]
      exact .opened hpending halloc hc' (hcompletes.mp hcomp) (not_not.mp hident)
  · rw [if_neg hcomp]
    by_cases hans : m.NeedsAnswer remote
    · rw [if_pos hans]
      refine ⟨.connect s remote, [], by simp [answered], rfl, ?_, Or.inl ⟨rfl, rfl⟩⟩
      have hans' : (m.answered remote.header.nodeId c ipv4).link remote.header.nodeId =
          l.learn remote := hlink
      rw [hans', List.append_nil]
      simp only [answered, hsent, List.nil_append, List.map_cons, List.map_nil,
        Multiset.coe_singleton]
      rw [exchgData_link hm, hlink]
      exact .answered hpending halloc hc' (mt hcompletes.mpr hcomp) (hneeds.mp hans)
    · rw [if_neg hans]
      refine ⟨.connect s remote, [], (List.append_nil _).symm, rfl, ?_, Or.inl ⟨rfl, rfl⟩⟩
      rw [hlink, hsent, List.append_nil]
      exact .silent hpending halloc (mt hcompletes.mpr hcomp) (mt hneeds.mpr hans)

/-- A step of the exchange says what a job about the other node did to the manager `m`. -/
def SeenAs (p : Side → Params) (x : Exchange) (s : Side) (rest : Multiset ConnectionExchgData)
    (m : ConnectionManager) (job : Job) (m' : ConnectionManager) : Prop :=
  ∃ label calls, m'.calls = m.calls ++ calls ∧
    m'.jobQueue.filterMap Job.remote? = m.jobQueue.filterMap Job.remote? ∧
    Exchange.Step p label x
      (x.act s (m'.link (p s.other).ownNodeId) rest (m'.sent.map Prod.snd) calls) ∧
    job.Labelled (m.discoveryManager.nodeInfo (p s.other).ownNodeId ≠ none) s label ∧
    (label ≠ .kill s → ∀ j ∈ m'.jobQueue, j.isClose = true → j ∈ m.jobQueue)

theorem seenAs_create {rest : Multiset ConnectionExchgData} {m₁ : ConnectionManager}
    {c : Connection} (ipv4 : UInt32) (hm : m.Runs (p s)) (hsent : m.sent = [])
    (hlink : x.link s = m.link (p s.other).ownNodeId) (hpending : x.pending s = rest)
    (halloc : Allocates env (p s.other).ownNodeId m m₁ ∧
      (m.connectionStates (p s.other).ownNodeId).state = .inCreation ∨ m₁ = m)
    (hc : m₁.connections (p s.other).ownNodeId = some c) :
    SeenAs p x s rest m (.createConnection (p s.other).ownNodeId)
      (m₁.answered (p s.other).ownNodeId c ipv4) := by
  obtain ⟨calls, halloc', hcalls, hq, hsent₁, hm₁⟩ : ∃ calls,
      Link.Allocates (p s.other).ownNodeId (m.link (p s.other).ownNodeId)
        (m₁.link (p s.other).ownNodeId) calls ∧ m₁.calls = m.calls ++ calls ∧
      m₁.jobQueue = m.jobQueue ∧ m₁.sent = m.sent ∧ m₁.Runs (p s) := by
    rcases halloc with ⟨halloc, -⟩ | rfl
    · obtain ⟨calls, h₁, h₂, h₃, h₄⟩ := halloc.link
      exact ⟨calls, h₁, h₂, h₃, h₄, halloc.runs hm⟩
    · exact ⟨[], .kept hc, (List.append_nil _).symm, rfl, rfl, hm⟩
  refine ⟨.create s, calls, hcalls, congrArg _ hq, ?_, Or.inl rfl, fun _ j hj _ => hq ▸ hj⟩
  have hlink' : (m₁.answered (p s.other).ownNodeId c ipv4).link
      (p s.other).ownNodeId = m₁.link (p s.other).ownNodeId := rfl
  rw [hlink', ← hpending]
  simp only [answered, hsent₁, hsent, List.nil_append, List.map_cons, List.map_nil,
    Multiset.coe_singleton]
  rw [exchgData_link hm₁]
  exact .create (hlink ▸ halloc') hc

theorem seenAs_connect {remote : ConnectionExchgData} {rest : Multiset ConnectionExchgData}
    {m₁ : ConnectionManager} {c : Connection} (ipv4 : UInt32) (hm : m.Runs (p s))
    (hn : remote.header.nodeId = (p s.other).ownNodeId) (hsent : m.sent = [])
    (hlink : x.link s = m.link (p s.other).ownNodeId)
    (hpending : x.pending s = remote ::ₘ rest)
    (halloc : Allocates env remote.header.nodeId m m₁)
    (hc : (m₁.learn remote).connections remote.header.nodeId = some c) :
    SeenAs p x s rest m (.connectConnection remote)
      ((m₁.learn remote).finishedOrAnswered remote c ipv4) := by
  obtain ⟨calls, halloc', hcalls, hq, hsent₁⟩ := halloc.link
  rw [hn, ← hlink] at halloc'
  have hm₁ : (m₁.learn remote).Runs (p s) := by
    have hr := halloc.runs hm
    exact ⟨hr.1, hr.2, hr.3, hr.4, hr.5⟩
  obtain ⟨label, opened, hcalls', hq', hstep, hlabel⟩ :=
    step_finishedOrAnswered ipv4 hm₁ hn (hsent₁.trans hsent) hpending
      halloc' (by rw [link_learn, hn]) hc
  refine ⟨label, calls ++ Link.learnCalls (p s.other).ownNodeId
    (m₁.link (p s.other).ownNodeId) remote ++ opened, ?_, hq'.trans (congrArg _ hq), ?_, ?_, ?_⟩
  · rw [hcalls', calls_learn, hcalls, hn]
    simp only [List.append_assoc]
  · rw [← hn]
    rw [← hn] at hstep
    exact hstep
  · exact hlabel.imp And.left Or.inl
  · intro hkill j hj _
    rcases hlabel with ⟨-, hsame⟩ | hlabel
    · rw [hsame] at hj
      exact hq ▸ hj
    · exact absurd hlabel hkill

theorem seenAs_close {rest : Multiset ConnectionExchgData} {force shutdown : Bool}
    {c : Connection} (hm : m.Runs (p s)) (hsent : m.sent = [])
    (hlink : x.link s = m.link (p s.other).ownNodeId) (hpending : x.pending s = rest)
    (hc : m.connections (p s.other).ownNodeId = some c) :
    SeenAs p x s rest m (.closeConnection (p s.other).ownNodeId force shutdown)
      (m.closed (p s.other).ownNodeId c force shutdown) := by
  refine ⟨.close s, Link.closedCalls (p s.other).ownNodeId force (p s).listener
    (p s).discoveryListener, ?_, ?_, ?_, rfl, fun _ j hj hclose => ?_⟩
  · simp only [closed, Link.closedCalls, hm.listener, hm.discoveryListener, List.append_assoc]
  · cases shutdown <;> simp [closed, Job.remote?]
  · have hlink' : (m.closed (p s.other).ownNodeId c force shutdown).link
        (p s.other).ownNodeId = (x.link s).closed := by
      rw [hlink]
      exact link_setLink_self ..
    have hsent' : (m.closed (p s.other).ownNodeId c force shutdown).sent = [] := hsent
    rw [hlink', hsent', ← hpending]
    exact .close (by rw [hlink]; exact hc)
  · cases shutdown with
    | true => exact hj
    | false =>
      rcases List.mem_append.mp hj with hj | hj
      · exact hj
      · rw [List.mem_singleton] at hj
        rw [hj] at hclose
        cases hclose

/-- A job about the other node, seen from the exchange. -/
theorem Dispatched.step_exchange {job : Job} {rest : Multiset ConnectionExchgData}
    (h : Dispatched env m job m') (hm : m.Runs (p s)) (hrunning : m.flagShutdown = false)
    (habout : job.About (p s.other).ownNodeId) (hsent : m.sent = [])
    (hlink : x.link s = m.link (p s.other).ownNodeId)
    (hpending : x.pending s = job.remote?.toList + rest) :
    SeenAs p x s rest m job m' := by
  cases h with
  | @createDropped n hdrop =>
    obtain rfl : n = (p s.other).ownNodeId := habout
    replace hpending : x.pending s = rest := by simpa [Job.remote?] using hpending
    refine ⟨.stutter, [], (List.append_nil _).symm, rfl, ?_, Or.inr ⟨rfl, ?_⟩, fun _ _ hj _ => hj⟩
    · rw [hsent, ← hlink, ← hpending]
      exact .stutter (by simp)
    · simpa [hrunning] using hdrop
  | @create n entry m₁ c hshutdown hinfo halloc hc =>
    obtain rfl : n = (p s.other).ownNodeId := habout
    replace hpending : x.pending s = rest := by simpa [Job.remote?] using hpending
    exact seenAs_create entry.address hm hsent hlink hpending halloc hc
  | @connectDropped remote hdrop =>
    have hn : remote.header.nodeId = (p s.other).ownNodeId := habout
    replace hpending : x.pending s = remote ::ₘ rest := by simpa [Job.remote?] using hpending
    refine ⟨.lose s, [], (List.append_nil _).symm, rfl, ?_, Or.inr (Or.inr ⟨rfl, ?_⟩),
      fun _ _ hj _ => hj⟩
    · rw [hsent, ← hlink]
      exact .lose hpending
    · simpa [hrunning, hn] using hdrop
  | @connect remote entry m₁ c hshutdown hinfo halloc hcreated hc =>
    have hn : remote.header.nodeId = (p s.other).ownNodeId := habout
    replace hpending : x.pending s = remote ::ₘ rest := by simpa [Job.remote?] using hpending
    exact seenAs_connect entry.address hm hn hsent hlink hpending halloc hc
  | @close n force shutdown c hc =>
    obtain rfl : n = (p s.other).ownNodeId := habout
    replace hpending : x.pending s = rest := by simpa [Job.remote?] using hpending
    exact seenAs_close hm hsent hlink hpending hc
  | @closeAgain n force shutdown hc =>
    obtain rfl : n = (p s.other).ownNodeId := habout
    replace hpending : x.pending s = rest := by simpa [Job.remote?] using hpending
    refine ⟨.close s, [], (List.append_nil _).symm, rfl, ?_, rfl, fun _ _ hj _ => hj⟩
    rw [updateState_eq, link_setLink_self, ← hlink, setLink_sent, hsent, ← hpending]
    have hc' : (x.link s).connection = none := by
      rw [hlink]
      exact hc
    have hstate : (x.link s).state = m.connectionStates (p s.other).ownNodeId := by
      rw [hlink]
      rfl
    rw [← hstate]
    exact .closeAgain hc'
  | @discover ipv4s hipv4s =>
    replace hpending : x.pending s = rest := by simpa [Job.remote?] using hpending
    refine ⟨.stutter, ipv4s.map Call.discoveryReq, rfl, rfl, ?_, rfl, fun _ _ hj _ => hj⟩
    have hlink' : ({ m with calls := m.calls ++ ipv4s.map Call.discoveryReq } :
      ConnectionManager).link (p s.other).ownNodeId = x.link s := hlink.symm
    rw [hlink', hsent, ← hpending]
    exact .stutter (by simp [Link.DiscoveryCall])
  | discoveredUnknown htake =>
    replace hpending : x.pending s = rest := by simpa [Job.remote?] using hpending
    refine ⟨.stutter, [], (List.append_nil _).symm, rfl, ?_, rfl, fun _ _ hj _ => hj⟩
    rw [hsent, ← hlink, ← hpending]
    exact .stutter (by simp)
  | @discovered ipv4 n entry rest' htake =>
    replace hpending : x.pending s = rest := by simpa [Job.remote?] using hpending
    refine ⟨.stutter, if m.discoveryListener then [.nodeDiscovered n] else [], rfl, rfl, ?_, rfl,
      fun _ _ hj _ => hj⟩
    rw [← hpending]
    change Exchange.Step p _ x (x.act s (m.link _) _ (m.sent.map Prod.snd) _)
    rw [hsent, ← hlink]
    refine .stutter fun call hcall => ?_
    split at hcall
    · rw [List.mem_singleton] at hcall
      rw [hcall]
      trivial
    · cases hcall

end

end ConnectionManager

namespace Pair

variable {p : Side → Params} {w w' : Pair}

/-! ## The exchange of a pair -/

variable (p) in
/-- The links of the two managers to each other. -/
def exchange (w : Pair) : Exchange where
  link := fun s => (w.node s).link (nodeId p s.other)
  pending := fun s => w.net s + (w.node s).jobQueue.filterMap Job.remote?
  calls := fun s => (w.node s).calls

variable (p) in
/-- Every job and datagram is about the other node. -/
structure Addressed (w : Pair) : Prop where
  runs : ∀ s, (w.node s).Runs (p s)
  running : ∀ s, (w.node s).flagShutdown = false
  holds : ∀ s, (w.node s).Holds
  jobs : ∀ s, ∀ job ∈ (w.node s).jobQueue, job.About (nodeId p s.other)
  net : ∀ s, ∀ remote ∈ w.net s, remote.header.nodeId = nodeId p s.other
  sent : ∀ s, (w.node s).sent = []

theorem addressed_init : Addressed p (init p) where
  runs _ := ⟨rfl, rfl, rfl, rfl, rfl⟩
  running _ := rfl
  holds _ := ConnectionManager.holds_new _
  jobs _ := by simp [init, ConnectionManager.new]
  net _ := by simp [init]
  sent _ := rfl

/-- The pair after a step of one node, seen from the exchange. -/
theorem exchange_update (s : Side) (m : ConnectionManager) (net : List ConnectionExchgData)
    (k : Nat) {calls : List Call} (hcalls : m.calls = (w.node s).calls ++ calls) :
    exchange p
      { node := Function.update w.node s { m with sent := [] }
        net := Function.update (Function.update w.net s net) s.other
          (w.net s.other ++ m.sent.map Prod.snd)
        createJobs := k } =
      (exchange p w).act s (m.link (nodeId p s.other))
        (net + m.jobQueue.filterMap Job.remote?) (m.sent.map Prod.snd) calls := by
  apply Exchange.ext
  · funext t
    rcases Side.eq_or_eq_other s t with rfl | rfl
    · simp [exchange, ConnectionManager.link]
    · simp [exchange]
  · funext t
    rcases Side.eq_or_eq_other s t with rfl | rfl
    · simp [exchange]
    · rw [Exchange.act_pending_other]
      simp only [exchange, Function.update_self, Function.update_of_ne (Side.other_ne s)]
      rw [← Multiset.coe_add, add_right_comm]
  · funext t
    rcases Side.eq_or_eq_other s t with rfl | rfl
    · simp [exchange, hcalls]
    · simp [exchange]

/-! ## Steps of the pair -/

/-- What a step of the exchange can be that models this action. -/
def Labelled (w : Pair) : Action → Exchange.Label → Prop
  | .requestCreation s, label => label = .state s
  | .giveUpCreation s, label => label = .state s
  | .addCreateJob _, label => label = .stutter
  | .closeConnection _ _ _, label => label = .stutter
  | .discoveryResp _ _, label => label = .stutter
  | .receive _ _, label => label = .stutter
  | .lose s _, label => label = .lose s
  | .duplicate s _, label => label = .duplicate s
  | .runJob s _, label => ∃ job jobQueue, (w.node s).jobQueue = job :: jobQueue ∧
      job.Labelled ((w.node s).discoveryManager.nodeInfo (nodeId p s.other) ≠ none) s label

theorem actNode_eq_some {s : Side} {a : ConnectionManager.Action} (h : w.actNode s a = some w') :
    ∃ m, (w.node s).step a = some m ∧
      w' = { w with
        node := Function.update w.node s { m with sent := [] }
        net := Function.update w.net s.other (w.net s.other ++ m.sent.map Prod.snd) } := by
  unfold actNode at h
  obtain ⟨m, hm, rfl⟩ := Option.map_eq_some_iff.mp h
  exact ⟨m, hm, rfl⟩

theorem Addressed.update (hw : Addressed p w) {s : Side} {m : ConnectionManager}
    {net : List ConnectionExchgData} (k : Nat) (hruns : m.Runs (p s)) (hholds : m.Holds)
    (hout : m.Outgoing (nodeId p s.other))
    (hnet : ∀ remote ∈ net, remote.header.nodeId = nodeId p s.other) :
    Addressed p
      { node := Function.update w.node s { m with sent := [] }
        net := Function.update (Function.update w.net s net) s.other
          (w.net s.other ++ m.sent.map Prod.snd)
        createJobs := k } := by
  have hsent : ∀ remote ∈ w.net s.other ++ m.sent.map Prod.snd,
      remote.header.nodeId = nodeId p s.other.other := by
    intro remote hremote
    rcases List.mem_append.mp hremote with hremote | hremote
    · exact hw.net s.other remote hremote
    · obtain ⟨e, he, rfl⟩ := List.mem_map.mp hremote
      rw [hout.sent e he, hruns.ownNodeId, Side.other_other]
  refine ⟨fun t => ?_, fun t => ?_, fun t => ?_, fun t => ?_, fun t => ?_, fun t => ?_⟩
  · rcases Side.eq_or_eq_other s t with rfl | rfl
    · simp only [Function.update_self]
      exact ⟨hruns.1, hruns.2, hruns.3, hruns.4, hruns.5⟩
    · simpa using hw.runs s.other
  · rcases Side.eq_or_eq_other s t with rfl | rfl
    · simpa using hout.running
    · simpa using hw.running s.other
  · rcases Side.eq_or_eq_other s t with rfl | rfl
    · simp only [Function.update_self]
      exact hholds
    · simpa using hw.holds s.other
  · rcases Side.eq_or_eq_other s t with rfl | rfl
    · simpa using hout.jobs
    · simpa using hw.jobs s.other
  · rcases Side.eq_or_eq_other s t with rfl | rfl
    · simpa using hnet
    · simpa using hsent
  · rcases Side.eq_or_eq_other s t with rfl | rfl
    · simp
    · simpa using hw.sent s.other

theorem addressed_outgoing (hw : Addressed p w) (s : Side) :
    (w.node s).Outgoing (nodeId p s.other) where
  running := hw.running s
  jobs := hw.jobs s
  sent := by simp [hw.sent s]

/-- A step of one node, seen from the pair and from the exchange. -/
theorem actNode_exchange (hw : Addressed p w) {s : Side} {a : ConnectionManager.Action}
    {net : List ConnectionExchgData} {k : Nat}
    (h : ({ w with net := Function.update w.net s net, createJobs := k } : Pair).actNode s a =
      some w')
    (hnet : ∀ remote ∈ net, remote.header.nodeId = nodeId p s.other)
    (hstep : ∀ m, (w.node s).step a = some m →
      m.Runs (p s) ∧ m.Holds ∧ m.Outgoing (nodeId p s.other)) :
    ∃ m, (w.node s).step a = some m ∧ Addressed p w' ∧
      ∀ calls, m.calls = (w.node s).calls ++ calls →
        exchange p w' = (exchange p w).act s (m.link (nodeId p s.other))
          (net + m.jobQueue.filterMap Job.remote?) (m.sent.map Prod.snd) calls := by
  obtain ⟨m, hm, hw'⟩ := actNode_eq_some h
  obtain ⟨hruns, hholds, hout⟩ := hstep m hm
  dsimp only at hw'
  rw [Function.update_of_ne (Side.other_ne s)] at hw'
  subst hw'
  exact ⟨m, hm, hw.update k hruns hholds hout hnet,
    fun calls hcalls => exchange_update s m net k hcalls⟩

/-- Adding a job, with a datagram taken from the network or not. -/
theorem addJob_exchange (hw : Addressed p w) {s : Side} {job : Job}
    {net : List ConnectionExchgData}
    (h : ({ w with net := Function.update w.net s net } : Pair).actNode s (.addJob job) =
      some w')
    (hnet : (net : Multiset ConnectionExchgData) + job.remote?.toList = w.net s)
    (habout : job.About (nodeId p s.other)) :
    Addressed p w' ∧ Exchange.Step p .stutter (exchange p w) (exchange p w') := by
  have hmem : ∀ remote ∈ net, remote.header.nodeId = nodeId p s.other := by
    intro remote hremote
    refine hw.net s remote (Multiset.mem_coe.mp ?_)
    rw [← hnet]
    exact Multiset.mem_add.mpr (Or.inl hremote)
  obtain ⟨m, hm, hw', hx⟩ := actNode_exchange hw h hmem fun m hm => by
    obtain rfl := Option.some.inj hm
    have hr := hw.runs s
    have ho := addressed_outgoing hw s
    refine ⟨⟨hr.1, hr.2, hr.3, hr.4, hr.5⟩, hw.holds s, ho.running, fun j hj => ?_, ho.sent⟩
    rcases List.mem_append.mp hj with hj | hj
    · exact ho.jobs j hj
    · rw [List.mem_singleton] at hj
      exact hj ▸ habout
  obtain rfl := Option.some.inj hm
  have hrest : (net : Multiset ConnectionExchgData) +
      (((w.node s).jobQueue ++ [job]).filterMap Job.remote? : List ConnectionExchgData) =
      (exchange p w).pending s := by
    have htail : [job].filterMap Job.remote? = job.remote?.toList := by
      cases hjob : job.remote? <;> simp [hjob]
    rw [List.filterMap_append, htail, ← Multiset.coe_add, add_left_comm, ← add_assoc,
      add_comm _ (net : Multiset ConnectionExchgData), add_right_comm, hnet]
    rfl
  refine ⟨hw', ?_⟩
  rw [hx [] (List.append_nil _).symm, hrest]
  change Exchange.Step p .stutter _ ((exchange p w).act s ((exchange p w).link s) _
    ((w.node s).sent.map Prod.snd) [])
  rw [hw.sent s]
  exact .stutter (by simp)

/-- Adding a job that handles no datagram. -/
theorem addJob_exchange_of_none (hw : Addressed p w) {s : Side} {job : Job}
    (h : w.actNode s (.addJob job) = some w') (hnone : job.remote? = none)
    (habout : job.About (nodeId p s.other)) :
    Addressed p w' ∧ Exchange.Step p .stutter (exchange p w) (exchange p w') := by
  have h' : ({ w with net := Function.update w.net s (w.net s) } : Pair).actNode s
      (.addJob job) = some w' := by
    rw [Function.update_eq_self]
    exact h
  exact addJob_exchange hw h' (by simp [hnone]) habout

/-- Taking out the datagram at `i`. -/
theorem coe_eraseIdx {net : List ConnectionExchgData} {i : Nat} {remote : ConnectionExchgData}
    (h : net[i]? = some remote) :
    remote ::ₘ (net.eraseIdx i : Multiset ConnectionExchgData) = net := by
  obtain ⟨hi, rfl⟩ := List.getElem?_eq_some_iff.mp h
  exact Multiset.coe_eq_coe.mpr (List.getElem_cons_eraseIdx_perm hi)

/-- Another thread writes to the state of a link. -/
theorem updateState_exchange (hw : Addressed p w) {s : Side}
    {f : ConnectionState → ConnectionState} {a : ConnectionManager.Action}
    (ha : (w.node s).step a = some ((w.node s).updateState (nodeId p s.other) f))
    (hf : Link.SameExchange ((w.node s).connectionStates (nodeId p s.other))
      (f ((w.node s).connectionStates (nodeId p s.other))))
    (h : w.actNode s a = some w') :
    Addressed p w' ∧ Exchange.Step p (.state s) (exchange p w) (exchange p w') := by
  have h' : ({ w with net := Function.update w.net s (w.net s) } : Pair).actNode s a =
      some w' := by
    rw [Function.update_eq_self]
    exact h
  obtain ⟨m, hm, hw', hx⟩ := actNode_exchange hw h' (hw.net s) fun m hm => by
    have hholds := (hw.holds s).step hm
    rw [ha, Option.some.injEq] at hm
    subst hm
    have hr := hw.runs s
    have ho := addressed_outgoing hw s
    exact ⟨⟨hr.1, hr.2, hr.3, hr.4, hr.5⟩, hholds, ho.running, ho.jobs, ho.sent⟩
  rw [ha, Option.some.injEq] at hm
  subst hm
  refine ⟨hw', ?_⟩
  rw [hx [] (List.append_nil _).symm, ConnectionManager.updateState_eq,
    ConnectionManager.link_setLink_self]
  change Exchange.Step p _ _ ((exchange p w).act s
    { (exchange p w).link s with state := _ } ((exchange p w).pending s)
    ((w.node s).sent.map Prod.snd) [])
  rw [hw.sent s]
  exact .state hf

/-- The network loses or duplicates datagrams on their way to a side. -/
theorem net_exchange (hw : Addressed p w) {s : Side} {net : List ConnectionExchgData}
    (hnet : ∀ remote ∈ net, remote ∈ w.net s) :
    Addressed p { w with net := Function.update w.net s net } ∧
      exchange p { w with net := Function.update w.net s net } =
        (exchange p w).act s ((exchange p w).link s)
          (net + (w.node s).jobQueue.filterMap Job.remote?) 0 [] := by
  refine ⟨⟨hw.runs, hw.running, hw.holds, hw.jobs, fun t => ?_, hw.sent⟩, ?_⟩
  · rcases Side.eq_or_eq_other s t with rfl | rfl
    · simpa using fun remote hremote => hw.net _ remote (hnet remote hremote)
    · simpa using hw.net s.other
  · apply Exchange.ext
    · simp [exchange, Exchange.act]
    · funext t
      rcases Side.eq_or_eq_other s t with rfl | rfl
      · simp [exchange]
      · simp [exchange]
    · simp [exchange, Exchange.act]

/-- The datagram of the job at the head of a queue is on its way. -/
theorem pending_of_head {s : Side} {job : Job} {jobQueue : List Job}
    (hq : (w.node s).jobQueue = job :: jobQueue) :
    (exchange p w).pending s = job.remote?.toList +
      ((w.net s : Multiset ConnectionExchgData) + jobQueue.filterMap Job.remote?) := by
  have hhead : (job :: jobQueue).filterMap Job.remote? =
      job.remote?.toList ++ jobQueue.filterMap Job.remote? := by
    cases hjob : job.remote? <;> simp [hjob]
  simp only [exchange, hq]
  rw [hhead, ← Multiset.coe_add, add_left_comm]

/-- **Every step of the pair is a step of the exchange.** -/
theorem step_exchange (hw : Addressed p w) {a : Action} (h : step p w a = some w') :
    Addressed p w' ∧ ∃ label, Exchange.Step p label (exchange p w) (exchange p w') ∧
      Labelled (p := p) w a label := by
  cases a with
  | requestCreation s =>
    obtain ⟨hw', hx⟩ := updateState_exchange hw rfl (Link.sameExchange_requestCreation _) h
    exact ⟨hw', _, hx, rfl⟩
  | giveUpCreation s =>
    obtain ⟨hw', hx⟩ := updateState_exchange hw rfl (Link.sameExchange_giveUpCreation _) h
    exact ⟨hw', _, hx, rfl⟩
  | addCreateJob s =>
    obtain ⟨hw', hx⟩ := addJob_exchange_of_none hw h rfl rfl
    exact ⟨hw', _, hx, rfl⟩
  | closeConnection s force shutdown =>
    obtain ⟨hw', hx⟩ := addJob_exchange_of_none hw h rfl rfl
    exact ⟨hw', _, hx, rfl⟩
  | discoveryResp s sourceIPV4 =>
    obtain ⟨hw', hx⟩ := addJob_exchange_of_none hw h rfl rfl
    exact ⟨hw', _, hx, rfl⟩
  | receive s i =>
    simp only [step] at h
    cases hremote : (w.net s)[i]? with
    | none => simp [hremote] at h
    | some remote =>
      simp only [hremote] at h
      have habout : remote.header.nodeId = nodeId p s.other :=
        hw.net s remote (List.mem_of_getElem? hremote)
      obtain ⟨hw', hx⟩ := addJob_exchange hw h
        (by rw [← coe_eraseIdx hremote]; simp [Job.remote?, add_comm]) habout
      exact ⟨hw', _, hx, rfl⟩
  | lose s i =>
    simp only [step] at h
    split at h
    · next hi =>
      obtain rfl := Option.some.inj h
      obtain ⟨hw', hx⟩ := net_exchange hw
        (fun remote hremote => List.mem_of_mem_eraseIdx (i := i) hremote)
      refine ⟨hw', .lose s, ?_, rfl⟩
      have hpending : (exchange p w).pending s = (w.net s)[i] ::ₘ
          (((w.net s).eraseIdx i : Multiset ConnectionExchgData) +
            (w.node s).jobQueue.filterMap Job.remote?) := by
        rw [← Multiset.cons_add, coe_eraseIdx (List.getElem?_eq_getElem hi)]
        rfl
      rw [hx]
      exact .lose hpending
    · cases h
  | duplicate s i =>
    simp only [step] at h
    cases hremote : (w.net s)[i]? with
    | none => simp [hremote] at h
    | some remote =>
      simp only [hremote] at h
      obtain rfl := Option.some.inj h
      have hmem := List.mem_of_getElem? hremote
      have hsub : ∀ r ∈ remote :: w.net s, r ∈ w.net s := by
        intro r hr
        rcases List.mem_cons.mp hr with rfl | hr
        · exact hmem
        · exact hr
      obtain ⟨hw', hx⟩ := net_exchange hw hsub
      refine ⟨hw', .duplicate s, ?_, rfl⟩
      rw [hx, ← Multiset.cons_coe, Multiset.cons_add]
      exact .duplicate (Multiset.mem_add.mpr (Or.inl hmem))
  | runJob s env =>
    have h' : ({ w with
        net := Function.update w.net s (w.net s)
        createJobs := w.createJobs + if createsNext (w.node s) then 1 else 0 } : Pair).actNode s
          (.runJob env) = some w' := by
      rw [Function.update_eq_self]
      exact h
    obtain ⟨m, hm, hw', hx⟩ := actNode_exchange hw h' (hw.net s) fun m hm => by
      obtain ⟨job, jobQueue, hq, hd⟩ := ConnectionManager.step_runJob hm
      have hr := hw.runs s
      have ho := addressed_outgoing hw s
      have ho' : ConnectionManager.Outgoing { w.node s with jobQueue } (nodeId p s.other) :=
        ⟨ho.running, fun j hj => ho.jobs j (hq ▸ List.mem_cons_of_mem _ hj), ho.sent⟩
      exact ⟨hd.runs ⟨hr.1, hr.2, hr.3, hr.4, hr.5⟩, (hw.holds s).step hm,
        ho'.dispatched hd (hw.jobs s job (hq ▸ List.mem_cons_self))⟩
    obtain ⟨job, jobQueue, hq, hd⟩ := ConnectionManager.step_runJob hm
    have hr := hw.runs s
    obtain ⟨label, calls, hcalls, hjobs, hstep, hlabel, -⟩ :=
      hd.step_exchange (p := p) ⟨hr.1, hr.2, hr.3, hr.4, hr.5⟩ (hw.running s)
        (hw.jobs s job (hq ▸ List.mem_cons_self)) (hw.sent s) rfl (pending_of_head hq)
    refine ⟨hw', label, ?_, job, jobQueue, hq, hlabel⟩
    rw [hx calls hcalls, hjobs]
    exact hstep

end Pair

end Ibdxnet.Con
