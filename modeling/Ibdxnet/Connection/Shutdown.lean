import Ibdxnet.Connection.ConnectionIds
import Ibdxnet.Connection.Restart

/-!
# Shutdown

The job thread of the job manager and the destructor of the connection manager,
one shared access at a time.

    _RunLoop             popFront, take the dispatcher lock, dispatch, release it
    ~ConnectionManager   set the flag, add a close job for each entry of the table,
                         wait for an empty queue, remove the four dispatchers

The queue is empty as soon as the last job is taken off it, and that job is
dispatched only once the job thread has the lock.  In between the destructor can
remove the dispatcher of the close jobs, and then the job is deleted unseen.  And
a close job is about the node its connection is connected to: the job of one that
was never connected names the invalid node id, for which the tables have no entry.

    all close jobs of the destructor can be dispatched, are, and close what it found
        ↔  each connection it finds is connected, and no close job waits for the
           lock when their dispatcher is removed            (`shutdown_drains_iff`)
-/

namespace Ibdxnet.Con

/-! ## Job types and dispatchers -/

inductive JobDispatcher
  | connectionManager
  | discoveryManager
  deriving DecidableEq, Repr

/-- The type ids the two managers generated; `GenerateJobTypeId` hands out each
id once. -/
inductive JobType
  | createConnection
  | connectConnection
  | closeConnection
  | discover
  | discoverOnIdle
  | discovered
  deriving DecidableEq, Repr

/-- The manager that generated the id, and handles jobs of it. -/
def JobType.owner : JobType → JobDispatcher
  | createConnection => .connectionManager
  | connectConnection => .connectionManager
  | closeConnection => .connectionManager
  | discover => .discoveryManager
  | discoverOnIdle => .discoveryManager
  | discovered => .discoveryManager

namespace Job

def jobType : Job → JobType
  | createConnection _ => .createConnection
  | connectConnection _ => .connectConnection
  | closeConnection _ _ _ => .closeConnection
  | discover => .discover
  | discovered _ _ => .discovered

/-- A close job of the destructor: no other code sets `m_shutdown`. -/
def shutsDown : Job → Bool
  | closeConnection _ _ shutdown => shutdown
  | _ => false

end Job

/-- The node whose entries in the tables a job accesses: `m_connectionStates` and
`m_connections` of the connection manager, `m_nodeInfo` of the discovery manager. -/
def Job.accesses (m : ConnectionManager) : Job → Option NodeId
  | createConnection n => if m.flagShutdown then none else some n
  | connectConnection remote => if m.flagShutdown then none else some remote.header.nodeId
  | closeConnection n _ _ => some n
  | discover => none
  | discovered ipv4 n =>
    match DiscoveryManager.takeEntry ipv4 m.discoveryManager.infoToGet with
    | some (some _) => some n
    | _ => none

/-- The tables end before this node. -/
def Job.pastEnd (m : ConnectionManager) (job : Job) : Bool :=
  (job.accesses m).any fun n => decide (nodeIdMaxNumNodes ≤ n.toNat)

/-- `_DispatchJob` of one manager: jobs of other types are ignored. -/
def JobDispatcher.dispatchJob (it : JobDispatcher) (env : Environment) (job : Job) :
    JobM Unit := do
  if job.jobType.owner = it then
    let m ← get
    if job.pastEnd m then throw .outOfRange else ConnectionManager.dispatchJob env job
  else
    pure ()

/-- The loop over the dispatchers of a type. -/
def dispatchJobs (env : Environment) (job : Job) : List JobDispatcher → JobM Unit
  | [] => pure ()
  | it :: its => do
    it.dispatchJob env job
    dispatchJobs env job its

/-- What the job thread does next in `_RunLoop`; `none` is the idle job of the
discovery manager. -/
inductive RunLoop
  | popFront
  | lock (job : Option Job)
  | dispatch (job : Option Job)
  | unlock
  deriving DecidableEq, Repr

/-- The job thread holds `m_dispatcherLock`. -/
def RunLoop.locked : RunLoop → Bool
  | dispatch _ => true
  | unlock => true
  | _ => false

/-- What the destructor does next. -/
inductive Destructor
  | notCalled
  /-- the loop over the table reads its entry `i` -/
  | closing (i : Nat)
  /-- `while (!IsQueueEmpty())` -/
  | waiting
  | removingExchange
  | removingCreate
  | removingConnect
  | removingClose
  | returned
  deriving DecidableEq, Repr

structure Teardown where
  manager : ConnectionManager
  /-- `m_dispatcher` of the job manager -/
  dispatcher : JobType → List JobDispatcher
  thread : RunLoop
  destructor : Destructor
  /-- the connections when the destructor started -/
  started : NodeId → Option Connection
  /-- the close jobs the destructor has added -/
  added : List Job
  /-- the jobs dispatched to the connection manager -/
  dispatched : List Job

def Connection.getRemoteNodeId (c : Connection) : NodeId := c.remoteConnectionHeader.nodeId

namespace Teardown

/-! ## Steps -/

inductive Action
  /-- a call of `GetConnection` asks for a connection -/
  | requestCreation (nodeId : NodeId)
  /-- a call of `GetConnection` times out -/
  | giveUpCreation (nodeId : NodeId)
  /-- another thread adds a job -/
  | addJob (job : Job)
  /-- the next step of the job thread -/
  | runLoop (env : Environment)
  /-- the next step of the destructor -/
  | destruct

/-- A manager in use, before its destructor is called. -/
def init (m : ConnectionManager) : Teardown where
  manager := m
  dispatcher := fun t => [t.owner]
  thread := .popFront
  destructor := .notCalled
  started := fun _ => none
  added := []
  dispatched := []

def addJob (w : Teardown) (job : Job) : Teardown :=
  { w with manager := { w.manager with jobQueue := w.manager.jobQueue ++ [job] } }

/-- `RemoveDispatcher`, once the lock is free. -/
def removeDispatcher (w : Teardown) (t : JobType) (it : JobDispatcher) (next : Destructor) :
    Option Teardown :=
  if w.thread.locked then none
  else some { w with
    dispatcher := Function.update w.dispatcher t ((w.dispatcher t).erase it)
    destructor := next }

/-- `_RunLoop` -/
def runLoop (env : Environment) (w : Teardown) : Option Teardown :=
  match w.thread with
  | .popFront =>
    match w.manager.jobQueue with
    | [] => some { w with thread := .lock none }
    | job :: jobQueue =>
      some { w with manager := { w.manager with jobQueue }, thread := .lock (some job) }
  | .lock job => some { w with thread := .dispatch job }
  | .dispatch none =>
    match (dispatchJobs env .discover (w.dispatcher .discoverOnIdle)).run w.manager with
    | .ok _ manager => some { w with manager, thread := .unlock }
    | .error _ _ => none
  | .dispatch (some job) =>
    match (dispatchJobs env job (w.dispatcher job.jobType)).run w.manager with
    | .ok _ manager =>
      some { w with
        manager
        thread := .unlock
        dispatched := w.dispatched ++
          if .connectionManager ∈ w.dispatcher job.jobType then [job] else [] }
    | .error _ _ => none
  | .unlock => some { w with thread := .popFront }

/-- `~ConnectionManager` -/
def destruct (w : Teardown) : Option Teardown :=
  match w.destructor with
  | .notCalled =>
    some { w with
      manager := { w.manager with flagShutdown := true }
      started := w.manager.connections
      destructor := .closing 0 }
  | .closing i =>
    if i < nodeIdMaxNumNodes then
      match w.manager.connections (UInt16.ofNat i) with
      | none => some { w with destructor := .closing (i + 1) }
      | some c =>
        let job := Job.closeConnection c.getRemoteNodeId true true
        some { w.addJob job with destructor := .closing (i + 1), added := w.added ++ [job] }
    else some { w with destructor := .waiting }
  | .waiting =>
    if w.manager.jobQueue.isEmpty then some { w with destructor := .removingExchange }
    else some w
  | .removingExchange => some { w with destructor := .removingCreate }
  | .removingCreate =>
    w.removeDispatcher .createConnection .connectionManager .removingConnect
  | .removingConnect =>
    w.removeDispatcher .connectConnection .connectionManager .removingClose
  | .removingClose => w.removeDispatcher .closeConnection .connectionManager .returned
  | .returned => none

def step (w : Teardown) : Action → Option Teardown
  | .requestCreation nodeId =>
    some { w with manager := w.manager.updateState nodeId ConnectionState.requestCreation }
  | .giveUpCreation nodeId =>
    some { w with manager := w.manager.updateState nodeId ConnectionState.giveUpCreation }
  | .addJob job => if job.shutsDown then none else some (w.addJob job)
  | .runLoop env => w.runLoop env
  | .destruct => w.destruct

end Teardown

/-! ## What a job does to the queue and the table -/

theorem Job.jobType_of_shutsDown {job : Job} (h : job.shutsDown = true) :
    job.jobType = .closeConnection := by
  cases job with
  | closeConnection n force shutdown => rfl
  | createConnection | connectConnection | discover | discovered => cases h

namespace ConnectionManager

variable {m m' : ConnectionManager} {env : Environment} {job : Job}

/-- None of the jobs a job adds shuts down. -/
theorem Dispatched.exists_not_shutsDown (hd : Dispatched env m job m') :
    ∃ jobs, m'.jobQueue = m.jobQueue ++ jobs ∧ ∀ j ∈ jobs, j.shutsDown = false := by
  obtain ⟨jobs, hq, hjobs⟩ := hd.exists_jobQueue
  refine ⟨jobs, hq, fun j hj => ?_⟩
  cases j with
  | closeConnection n force shutdown =>
    cases shutdown with
    | true => exact absurd rfl (hjobs _ hj n force)
    | false => rfl
  | createConnection | connectConnection | discover | discovered => rfl

/-- Once the manager shuts down, jobs only remove connections. -/
theorem Dispatched.connections_of_shutdown (hd : Dispatched env m job m')
    (hshutdown : m.flagShutdown = true) :
    m'.flagShutdown = true ∧
      ∀ n, m'.connections n = m.connections n ∨ m'.connections n = none := by
  cases hd with
  | createDropped | connectDropped | discoveredUnknown | discover | discovered | closeAgain =>
    exact ⟨hshutdown, fun _ => Or.inl rfl⟩
  | create hrunning => simp [hshutdown] at hrunning
  | connect hrunning => simp [hshutdown] at hrunning
  | @close n force shutdown c hc =>
    refine ⟨hshutdown, fun k => ?_⟩
    by_cases hk : k = n
    · subst hk
      exact Or.inr (Function.update_self ..)
    · exact Or.inl (Function.update_of_ne hk ..)

/-- Each connection is kept under the node it is connected to, if it is connected. -/
def InPlace (m : ConnectionManager) : Prop :=
  ∀ n c, m.connections n = some c →
    c.remoteConnectionHeader.nodeId = n ∨ c.remoteConnectionHeader.nodeId = nodeIdInvalid

theorem InPlace.setLink {m : ConnectionManager} (h : m.InPlace) {n : NodeId} {l : Link}
    (hl : ∀ c, l.connection = some c →
      c.remoteConnectionHeader.nodeId = n ∨ c.remoteConnectionHeader.nodeId = nodeIdInvalid) :
    (m.setLink n l).InPlace := by
  intro k c hc
  by_cases hk : k = n
  · subst hk
    rw [setLink_connections_self] at hc
    exact hl c hc
  · exact h k c ((Function.update_of_ne hk ..).symm.trans hc)

theorem InPlace.allocates {m m' : ConnectionManager} {env : Environment} {n : NodeId}
    (h : m.InPlace) (halloc : Allocates env n m m') : m'.InPlace := by
  cases halloc with
  | kept => exact h
  | created hc hid hqp =>
    refine h.setLink (l := (m.link n).allocate _ _) fun c hc => ?_
    obtain rfl := Option.some.inj hc
    exact Or.inr rfl

theorem InPlace.learn {m : ConnectionManager} (h : m.InPlace) (remote : ConnectionExchgData) :
    (m.learn remote).InPlace := by
  refine h.setLink (l := (m.link remote.header.nodeId).learn remote) fun c hc => ?_
  unfold Link.learn at hc
  simp only at hc
  split at hc
  · exact h _ c hc
  · obtain ⟨c', -, rfl⟩ := Option.map_eq_some_iff.mp hc
    exact Or.inl rfl

theorem InPlace.dispatched {m m' : ConnectionManager} {env : Environment} {job : Job}
    (h : m.InPlace) (hd : Dispatched env m job m') : m'.InPlace := by
  cases hd with
  | createDropped | connectDropped | discoveredUnknown | discover | discovered | closeAgain =>
    exact h
  | @create n entry m₁ c hshutdown hinfo halloc hc =>
    change m₁.InPlace
    rcases halloc with ⟨halloc, -⟩ | rfl
    · exact h.allocates halloc
    · exact h
  | @connect remote entry m₁ c hshutdown hinfo halloc hcreated hc =>
    have hlearn := (h.allocates halloc).learn remote
    unfold finishedOrAnswered
    split
    · split
      · exact hlearn.setLink fun c hc => hlearn _ c hc
      · exact hlearn.setLink fun c hc => hlearn _ c hc
    · split
      · exact hlearn
      · exact hlearn
  | close hc =>
    exact h.setLink (l := (m.link _).closed) fun c hc => by cases hc

end ConnectionManager

open ConnectionManager (Dispatched)

theorem toNat_lt_of_ne_invalid {n : NodeId} (hn : n ≠ nodeIdInvalid) :
    n.toNat < nodeIdMaxNumNodes := by
  have hlt := n.toNat_lt
  have hne : n.toNat ≠ nodeIdInvalid.toNat := fun h => hn (UInt16.toNat_inj.mp h)
  have hinvalid : nodeIdInvalid.toNat = 65535 := rfl
  unfold nodeIdMaxNumNodes
  omega

/-- The owner of its type runs a job, unless the tables have no entry for its node. -/
theorem run_dispatchJobs_owner (env : Environment) (job : Job) (m : ConnectionManager) :
    (dispatchJobs env job [job.jobType.owner]).run m =
      if job.pastEnd m then .error .outOfRange m
      else (ConnectionManager.dispatchJob env job).run m := by
  have hone : (dispatchJobs env job [job.jobType.owner]).run m =
      (job.jobType.owner.dispatchJob env job).run m := by
    rw [dispatchJobs, dispatchJobs, EStateM.run_bind]
    cases (job.jobType.owner.dispatchJob env job).run m <;> rfl
  rw [hone, JobDispatcher.dispatchJob, if_pos rfl, EStateM.run_bind, EStateM.run_get]
  simp only [Exec.run_ite, Exec.run_throw]

/-- What the dispatchers of a type do with a job: the owner of the type runs it,
if it is still registered. -/
theorem run_dispatchJobs {m m' : ConnectionManager} {env : Environment} {job : Job}
    {its : List JobDispatcher} (hits : its = [job.jobType.owner] ∨ its = [])
    (h : (dispatchJobs env job its).run m = .ok () m') :
    its = [job.jobType.owner] ∧ Dispatched env m job m' ∨ its = [] ∧ m' = m := by
  rcases hits with rfl | rfl
  · refine Or.inl ⟨rfl, ?_⟩
    rw [run_dispatchJobs_owner] at h
    split at h
    · cases h
    · exact ConnectionManager.run_dispatchJob h
  · refine Or.inr ⟨rfl, ?_⟩
    simpa [dispatchJobs] using h.symm

/-- A close job of the destructor about an entry of the tables never fails. -/
theorem exists_run_dispatchJobs_close (env : Environment) {n : NodeId} (hn : n ≠ nodeIdInvalid)
    {its : List JobDispatcher} (hits : its = [.connectionManager] ∨ its = [])
    (m : ConnectionManager) :
    ∃ m', (dispatchJobs env (.closeConnection n true true) its).run m = .ok () m' := by
  rcases hits with rfl | rfl
  · rw [show JobDispatcher.connectionManager = (Job.closeConnection n true true).jobType.owner
      from rfl, run_dispatchJobs_owner, if_neg]
    · exact ConnectionManager.run_jobDispatchCloseConnection_force env n true m
    · simpa [Job.pastEnd, Job.accesses] using toNat_lt_of_ne_invalid hn
  · exact ⟨m, rfl⟩

/-! ## What holds in every state -/

/-- The dispatcher of the type has been removed. -/
def Destructor.removed (d : Destructor) : JobType → Bool
  | .createConnection => d = .removingConnect ∨ d = .removingClose ∨ d = .returned
  | .connectConnection => d = .removingClose ∨ d = .returned
  | .closeConnection => d = .returned
  | .discover => false
  | .discoverOnIdle => false
  | .discovered => false

/-- The destructor has found the queue empty. -/
def Destructor.waited : Destructor → Bool
  | .notCalled => false
  | .closing _ => false
  | .waiting => false
  | _ => true

/-- The job that was taken off the queue and is not dispatched yet. -/
def RunLoop.job? : RunLoop → Option Job
  | popFront => none
  | lock job => job
  | dispatch job => job
  | unlock => none

namespace Teardown

variable {w w' : Teardown} {a : Action}

/-- What holds in every state: the dispatchers that are registered, and the close
jobs of the destructor in the order it added them, dispatched, held or queued. -/
structure Holds (w : Teardown) : Prop where
  table : ∀ t, w.dispatcher t = if w.destructor.removed t then [] else [t.owner]
  flag : w.destructor ≠ .notCalled → w.manager.flagShutdown = true
  fifo : w.destructor ≠ .returned → w.dispatched.filter Job.shutsDown ++
    (w.thread.job?.toList ++ w.manager.jobQueue).filter Job.shutsDown = w.added
  waited : w.destructor.waited = true → ∀ job ∈ w.manager.jobQueue, job.shutsDown = false

theorem holds_init {m : ConnectionManager} (hm : ∀ job ∈ m.jobQueue, job.shutsDown = false) :
    (init m).Holds where
  table t := by cases t <;> rfl
  flag h := absurd rfl h
  fifo _ := by
    simp only [init, RunLoop.job?, Option.toList_none, List.nil_append, List.filter_nil]
    exact List.filter_eq_nil_iff.mpr fun job hjob => by simp [hm job hjob]
  waited h := by cases h

/-- Another thread writes a state or adds a job. -/
theorem Holds.of_queue (h : w.Holds) (jobs : List Job) {m : ConnectionManager}
    (hflag : m.flagShutdown = w.manager.flagShutdown)
    (hq : m.jobQueue = w.manager.jobQueue ++ jobs) (hjobs : ∀ job ∈ jobs, job.shutsDown = false) :
    Holds { w with manager := m } where
  table := h.table
  flag hcalled := hflag.trans (h.flag hcalled)
  fifo hnot := by
    have hnone : jobs.filter Job.shutsDown = [] :=
      List.filter_eq_nil_iff.mpr fun job hjob => by simp [hjobs job hjob]
    have hfifo := h.fifo hnot
    rw [List.filter_append] at hfifo ⊢
    rw [hq, List.filter_append, hnone, List.append_nil]
    exact hfifo
  waited hwaited job hjob := by
    rw [hq] at hjob
    rcases List.mem_append.mp hjob with hjob | hjob
    · exact h.waited hwaited job hjob
    · exact hjobs job hjob

/-- The dispatchers of a type are its owner, or none. -/
theorem Holds.dispatchers (h : w.Holds) (t : JobType) :
    w.dispatcher t = [t.owner] ∨ w.dispatcher t = [] := by
  rw [h.table t]
  split
  · exact Or.inr rfl
  · exact Or.inl rfl

/-- What a step of the job thread does. -/
inductive Ran (env : Environment) (w : Teardown) : Teardown → Prop
  | idle (hthread : w.thread = .popFront) (hq : w.manager.jobQueue = []) :
      Ran env w { w with thread := .lock none }
  | popped {job : Job} {jobQueue : List Job} (hthread : w.thread = .popFront)
      (hq : w.manager.jobQueue = job :: jobQueue) :
      Ran env w { w with manager := { w.manager with jobQueue }, thread := .lock (some job) }
  | locked {job : Option Job} (hthread : w.thread = .lock job) :
      Ran env w { w with thread := .dispatch job }
  | idleHandled {m : ConnectionManager} (hthread : w.thread = .dispatch none)
      (hd : Dispatched env w.manager .discover m) :
      Ran env w { w with manager := m, thread := .unlock }
  | handled {job : Job} {m : ConnectionManager} (hthread : w.thread = .dispatch (some job))
      (hits : w.dispatcher job.jobType = [job.jobType.owner])
      (hd : Dispatched env w.manager job m) :
      Ran env w { w with
        manager := m
        thread := .unlock
        dispatched := w.dispatched ++
          if job.jobType.owner = .connectionManager then [job] else [] }
  /-- nobody is registered for the type, and the job is deleted -/
  | deleted {job : Job} (hthread : w.thread = .dispatch (some job))
      (hits : w.dispatcher job.jobType = []) : Ran env w { w with thread := .unlock }
  | unlocked (hthread : w.thread = .unlock) : Ran env w { w with thread := .popFront }

theorem Holds.ran (h : w.Holds) {env : Environment} (hs : w.runLoop env = some w') :
    Ran env w w' := by
  unfold Teardown.runLoop at hs
  cases hthread : w.thread with
  | popFront =>
    rw [hthread] at hs
    simp only at hs
    cases hq : w.manager.jobQueue with
    | nil =>
      rw [hq] at hs
      exact Option.some.inj hs ▸ .idle hthread hq
    | cons job jobQueue =>
      rw [hq] at hs
      exact Option.some.inj hs ▸ .popped hthread hq
  | lock job =>
    rw [hthread] at hs
    exact Option.some.inj hs ▸ .locked hthread
  | dispatch job =>
    rw [hthread] at hs
    cases job with
    | none =>
      simp only at hs
      split at hs
      · next manager hrun =>
        have hits : w.dispatcher .discoverOnIdle = [.discoveryManager] := by
          rw [h.table]
          rfl
        rw [hits] at hrun
        rcases run_dispatchJobs (Or.inl rfl) hrun with ⟨-, hd⟩ | ⟨hnil, -⟩
        · exact Option.some.inj hs ▸ .idleHandled hthread hd
        · cases hnil
      · cases hs
    | some job =>
      simp only at hs
      split at hs
      · next manager hrun =>
        have hits := h.dispatchers job.jobType
        rcases run_dispatchJobs hits hrun with ⟨hits, hd⟩ | ⟨hits, rfl⟩
        · have hran := Ran.handled hthread hits hd
          rw [hits] at hs
          simp only [List.mem_singleton] at hs
          rw [← Option.some.inj hs]
          simpa only [eq_comm] using hran
        · rw [hits] at hs
          simp only [List.not_mem_nil, if_false, List.append_nil] at hs
          exact Option.some.inj hs ▸ .deleted hthread hits
      · cases hs
  | unlock =>
    rw [hthread] at hs
    exact Option.some.inj hs ▸ .unlocked hthread

/-- A job that adds no close jobs of the destructor is over. -/
theorem Holds.handled (h : w.Holds) (dispatched : List Job) {m : ConnectionManager}
    {jobs : List Job}
    (hflag : w.manager.flagShutdown = true → m.flagShutdown = true)
    (hq : m.jobQueue = w.manager.jobQueue ++ jobs) (hjobs : ∀ j ∈ jobs, j.shutsDown = false)
    (hdispatched : w.destructor ≠ .returned →
      dispatched.filter Job.shutsDown = w.thread.job?.toList.filter Job.shutsDown) :
    Holds { w with manager := m, thread := .unlock, dispatched := w.dispatched ++ dispatched } where
  table := h.table
  flag hcalled := hflag (h.flag hcalled)
  fifo hnot := by
    have hnone : jobs.filter Job.shutsDown = [] :=
      List.filter_eq_nil_iff.mpr fun job hjob => by simp [hjobs job hjob]
    have hfifo := h.fifo hnot
    rw [List.filter_append] at hfifo
    simp only [RunLoop.job?, Option.toList_none, List.nil_append, List.filter_append, hq, hnone,
      List.append_nil, hdispatched hnot, List.append_assoc]
    exact hfifo
  waited hwaited j hj := by
    rw [hq] at hj
    rcases List.mem_append.mp hj with hj | hj
    · exact h.waited hwaited j hj
    · exact hjobs j hj

theorem Holds.runLoop (h : w.Holds) {env : Environment} (hs : w.runLoop env = some w') :
    w'.Holds := by
  have hfifo := h.fifo
  cases h.ran hs with
  | idle hthread hq =>
    rw [hthread, hq] at hfifo
    refine ⟨h.table, h.flag, fun hnot => ?_, h.waited⟩
    simpa [hq, RunLoop.job?] using hfifo hnot
  | @popped job jobQueue hthread hq =>
    rw [hthread, hq] at hfifo
    exact ⟨h.table, h.flag, hfifo,
      fun hwaited j hj => h.waited hwaited j (hq ▸ List.mem_cons_of_mem job hj)⟩
  | locked hthread =>
    rw [hthread] at hfifo
    exact ⟨h.table, h.flag, hfifo, h.waited⟩
  | idleHandled hthread hd =>
    obtain ⟨jobs, hq, hjobs⟩ := hd.exists_not_shutsDown
    have hhandled := h.handled [] (fun hflag => (hd.connections_of_shutdown hflag).1) hq hjobs
      (by simp [hthread, RunLoop.job?])
    simpa only [List.append_nil] using hhandled
  | @handled job m hthread hits hd =>
    obtain ⟨jobs, hq, hjobs⟩ := hd.exists_not_shutsDown
    refine h.handled _ (fun hflag => (hd.connections_of_shutdown hflag).1) hq hjobs fun _ => ?_
    rw [hthread]
    cases hdown : job.shutsDown with
    | false => split <;> simp [RunLoop.job?, hdown]
    | true => simp [RunLoop.job?, job.jobType_of_shutsDown hdown, JobType.owner]
  | @deleted job hthread hits =>
    have hhandled := h.handled [] id (List.append_nil _).symm (by simp) fun hnot => by
      -- the dispatcher of the close jobs is still there
      have hdown : job.shutsDown = false := by
        cases hdown : job.shutsDown with
        | false => rfl
        | true =>
          rw [h.table, job.jobType_of_shutsDown hdown] at hits
          simp [Destructor.removed, hnot] at hits
      simp [hthread, RunLoop.job?, hdown]
    simpa only [List.append_nil] using hhandled
  | unlocked hthread =>
    rw [hthread] at hfifo
    exact ⟨h.table, h.flag, hfifo, h.waited⟩

theorem removeDispatcher_eq_some {t : JobType} {it : JobDispatcher} {next : Destructor}
    (hs : w.removeDispatcher t it next = some w') :
    w.thread.locked = false ∧ w' = { w with
      dispatcher := Function.update w.dispatcher t ((w.dispatcher t).erase it)
      destructor := next } := by
  unfold removeDispatcher at hs
  split at hs
  · cases hs
  · next hlocked => exact ⟨by simpa using hlocked, (Option.some.inj hs).symm⟩

/-- The dispatchers in the order the destructor removes them. -/
inductive Removes : Destructor → JobType → Destructor → Prop
  | create : Removes .removingCreate .createConnection .removingConnect
  | connect : Removes .removingConnect .connectConnection .removingClose
  | close : Removes .removingClose .closeConnection .returned

/-- What a step of the destructor does. -/
inductive Destructs (w : Teardown) : Teardown → Prop
  | called (hd : w.destructor = .notCalled) :
      Destructs w { w with
        manager := { w.manager with flagShutdown := true }
        started := w.manager.connections
        destructor := .closing 0 }
  | skipped {i : Nat} (hd : w.destructor = .closing i)
      (hc : w.manager.connections (UInt16.ofNat i) = none) :
      Destructs w { w with destructor := .closing (i + 1) }
  | closes {i : Nat} {c : Connection} (hd : w.destructor = .closing i)
      (hi : i < nodeIdMaxNumNodes) (hc : w.manager.connections (UInt16.ofNat i) = some c) :
      Destructs w { w.addJob (.closeConnection c.getRemoteNodeId true true) with
        destructor := .closing (i + 1)
        added := w.added ++ [.closeConnection c.getRemoteNodeId true true] }
  | passed {i : Nat} (hd : w.destructor = .closing i) (hi : nodeIdMaxNumNodes ≤ i) :
      Destructs w { w with destructor := .waiting }
  | waits (hd : w.destructor = .waiting) : Destructs w w
  | emptied (hd : w.destructor = .waiting) (hq : w.manager.jobQueue = []) :
      Destructs w { w with destructor := .removingExchange }
  | removedExchange (hd : w.destructor = .removingExchange) :
      Destructs w { w with destructor := .removingCreate }
  | removed {t : JobType} {next : Destructor} (hd : Removes w.destructor t next)
      (hlocked : w.thread.locked = false) :
      Destructs w { w with
        dispatcher := Function.update w.dispatcher t ((w.dispatcher t).erase t.owner)
        destructor := next }

theorem destructs (hs : w.destruct = some w') : Destructs w w' := by
  unfold destruct at hs
  have hremoved : ∀ {t next}, Removes w.destructor t next →
      w.removeDispatcher t t.owner next = some w' → Destructs w w' := by
    intro t next hd hs
    obtain ⟨hlocked, rfl⟩ := removeDispatcher_eq_some hs
    exact .removed hd hlocked
  cases hd : w.destructor with
  | notCalled =>
    rw [hd] at hs
    exact Option.some.inj hs ▸ .called hd
  | closing i =>
    rw [hd] at hs
    simp only at hs
    split at hs
    · next hi =>
      split at hs
      · next hc => exact Option.some.inj hs ▸ .skipped hd hc
      · next c hc => exact Option.some.inj hs ▸ .closes hd hi hc
    · next hi => exact Option.some.inj hs ▸ .passed hd (Nat.not_lt.mp hi)
  | waiting =>
    rw [hd] at hs
    simp only at hs
    split at hs
    · next hempty => exact Option.some.inj hs ▸ .emptied hd (List.isEmpty_iff.mp hempty)
    · exact Option.some.inj hs ▸ .waits hd
  | removingExchange =>
    rw [hd] at hs
    exact Option.some.inj hs ▸ .removedExchange hd
  | removingCreate =>
    rw [hd] at hs
    exact hremoved (hd ▸ .create) hs
  | removingConnect =>
    rw [hd] at hs
    exact hremoved (hd ▸ .connect) hs
  | removingClose =>
    rw [hd] at hs
    exact hremoved (hd ▸ .close) hs
  | returned =>
    rw [hd] at hs
    cases hs

/-- The destructor goes on, and removes no dispatcher. -/
theorem Holds.advance (h : w.Holds) {d : Destructor} (hcalled : w.destructor ≠ .notCalled)
    (hremoved : ∀ t, d.removed t = w.destructor.removed t) (hnot : w.destructor ≠ .returned)
    (hwaited : d.waited = true → ∀ job ∈ w.manager.jobQueue, job.shutsDown = false) :
    Holds { w with destructor := d } where
  table t := by
    rw [hremoved]
    exact h.table t
  flag _ := h.flag hcalled
  fifo _ := h.fifo hnot
  waited := hwaited

/-- The dispatcher of one type is removed. -/
theorem Removes.removed {d next : Destructor} {t : JobType} (h : Removes d t next) (k : JobType) :
    next.removed k = (d.removed k || decide (k = t)) := by
  cases h <;> cases k <;> rfl

theorem Removes.waited {d next : Destructor} {t : JobType} (h : Removes d t next) :
    d.waited = true ∧ d ≠ .returned ∧ d ≠ .notCalled ∧ next ≠ .notCalled := by
  cases h <;> exact ⟨rfl, by simp, by simp, by simp⟩

theorem Holds.destruct (h : w.Holds) (hs : w.destruct = some w') : w'.Holds := by
  cases destructs hs with
  | called hd =>
    refine ⟨fun t => ?_, fun _ => rfl, fun _ => h.fifo (by simp [hd]), fun hwaited => ?_⟩
    · rw [h.table, hd]
      cases t <;> rfl
    · cases hwaited
  | skipped hd hc =>
    refine h.advance (by simp [hd]) (fun t => ?_) (by simp [hd]) (by simp [Destructor.waited])
    rw [hd]
    cases t <;> rfl
  | @closes i c hd hi hc =>
    have hfifo := h.fifo (by simp [hd])
    refine ⟨fun t => ?_, fun _ => h.flag (by simp [hd]), fun _ => ?_, fun hwaited => ?_⟩
    · refine (h.table t).trans ?_
      rw [hd]
      cases t <;> rfl
    · simp only [addJob]
      rw [← List.append_assoc, List.filter_append, ← List.append_assoc, hfifo]
      rfl
    · cases hwaited
  | passed hd hi =>
    refine h.advance (by simp [hd]) (fun t => ?_) (by simp [hd]) (by simp [Destructor.waited])
    rw [hd]
    cases t <;> rfl
  | waits hd => exact h
  | emptied hd hq =>
    refine h.advance (by simp [hd]) (fun t => ?_) (by simp [hd]) (by simp [hq])
    rw [hd]
    cases t <;> rfl
  | removedExchange hd =>
    refine h.advance (by simp [hd]) (fun t => ?_) (by simp [hd])
      (fun _ => h.waited (by simp [hd, Destructor.waited]))
    rw [hd]
    cases t <;> rfl
  | @removed t next hd hlocked =>
    obtain ⟨hwaited, hnot, hcalled, -⟩ := hd.waited
    refine ⟨fun k => ?_, fun _ => h.flag hcalled, fun _ => h.fifo hnot,
      fun _ => h.waited hwaited⟩
    have hk := h.table k
    by_cases hkt : k = t
    · subst hkt
      simp only [Function.update_self]
      rw [hk, hd.removed]
      cases w.destructor.removed k <;> simp
    · simp only [Function.update_of_ne hkt]
      rw [hk, hd.removed]
      simp [hkt]

theorem Holds.step (h : w.Holds) (hs : step w a = some w') :
    w'.Holds := by
  cases a with
  | requestCreation n =>
    obtain rfl := Option.some.inj hs
    exact h.of_queue [] rfl (List.append_nil _).symm (by simp)
  | giveUpCreation n =>
    obtain rfl := Option.some.inj hs
    exact h.of_queue [] rfl (List.append_nil _).symm (by simp)
  | addJob job =>
    simp only [Teardown.step] at hs
    split at hs
    · cases hs
    · next hdown =>
      obtain rfl := Option.some.inj hs
      exact h.of_queue [job] rfl rfl (by simpa using hdown)
  | runLoop env => exact h.runLoop hs
  | destruct => exact h.destruct hs

/-! ## What is dispatched -/

/-- No close job of the destructor waits for the lock when the dispatcher of the
close jobs is removed. -/
def NoneWaits (w : Teardown) : Action → Prop
  | .destruct => w.destructor = .removingClose →
      ∀ job, w.thread = .lock (some job) → job.shutsDown = false
  | _ => True

/-- Once the destructor has returned, no job reaches the manager. -/
theorem Holds.dispatched_of_returned (h : w.Holds) (hreturned : w.destructor = .returned)
    (hs : Teardown.step w a = some w') :
    w'.dispatched = w.dispatched ∧ w'.added = w.added ∧ w'.destructor = .returned := by
  cases a with
  | requestCreation n | giveUpCreation n =>
    obtain rfl := Option.some.inj hs
    exact ⟨rfl, rfl, hreturned⟩
  | addJob job =>
    simp only [Teardown.step] at hs
    split at hs
    · cases hs
    · obtain rfl := Option.some.inj hs
      exact ⟨rfl, rfl, hreturned⟩
  | runLoop env =>
    cases h.ran hs with
    | @handled job m hthread hits hd =>
      refine ⟨?_, rfl, hreturned⟩
      have howner : job.jobType.owner ≠ .connectionManager := by
        intro howner
        rw [h.table, hreturned] at hits
        cases hjob : job.jobType <;> simp [hjob, Destructor.removed, JobType.owner] at hits howner
      simp [howner]
    | idle | popped | locked | idleHandled | deleted | unlocked => exact ⟨rfl, rfl, hreturned⟩
  | destruct =>
    change w.destruct = some w' at hs
    simp [Teardown.destruct, hreturned] at hs

/-- The close jobs of the destructor are all dispatched when it returns. -/
def Drained (w : Teardown) : Prop :=
  w.destructor = .returned → w.dispatched.filter Job.shutsDown = w.added

/-- What is still held or queued when the dispatcher of the close jobs is removed. -/
theorem Holds.held_of_removingClose (h : w.Holds) (hd : w.destructor = .removingClose)
    (hs : Teardown.step w .destruct = some w') :
    (∀ job, w.thread.job? = some job ↔ w.thread = .lock (some job)) ∧
      w'.dispatched = w.dispatched ∧ w'.added = w.added ∧
      w.dispatched.filter Job.shutsDown ++ w.thread.job?.toList.filter Job.shutsDown =
        w.added := by
  change w.destruct = some w' at hs
  simp only [Teardown.destruct, hd] at hs
  obtain ⟨hlocked, rfl⟩ := removeDispatcher_eq_some hs
  refine ⟨fun job => ?_, rfl, rfl, ?_⟩
  · cases hthread : w.thread with
    | lock job' => simp [RunLoop.job?]
    | popFront | unlock => simp [RunLoop.job?]
    | dispatch job' =>
      rw [hthread] at hlocked
      cases hlocked
  · have hqueue : w.manager.jobQueue.filter Job.shutsDown = [] :=
      List.filter_eq_nil_iff.mpr fun job hjob => by
        simp [h.waited (by simp [hd, Destructor.waited]) job hjob]
    have hfifo := h.fifo (by simp [hd])
    rw [List.filter_append, hqueue, List.append_nil] at hfifo
    exact hfifo

/-- Only the last step of the destructor makes it return. -/
theorem Holds.removingClose_of_returned (h : w.Holds) (hnot : w.destructor ≠ .returned)
    (hs : Teardown.step w a = some w') (hreturned : w'.destructor = .returned) :
    a = .destruct ∧ w.destructor = .removingClose := by
  cases a with
  | requestCreation n | giveUpCreation n =>
    obtain rfl := Option.some.inj hs
    exact absurd hreturned hnot
  | addJob job =>
    simp only [Teardown.step] at hs
    split at hs
    · cases hs
    · obtain rfl := Option.some.inj hs
      exact absurd hreturned hnot
  | runLoop env =>
    cases h.ran hs <;> exact absurd hreturned hnot
  | destruct =>
    refine ⟨rfl, ?_⟩
    cases destructs hs with
    | removed hd hlocked =>
      cases hd' : w.destructor with
      | removingClose => rfl
      | _ =>
        rw [hd'] at hd
        cases hd <;> cases hreturned
    | waits hd => exact absurd hreturned hnot
    | called | skipped | closes | passed | emptied | removedExchange => cases hreturned

theorem Drained.step (h : w.Holds) (hdrained : w.Drained) (hn : NoneWaits w a)
    (hs : Teardown.step w a = some w') : w'.Drained := by
  intro hreturned
  by_cases hd : w.destructor = .returned
  · obtain ⟨hdispatched, hadded, -⟩ := h.dispatched_of_returned hd hs
    rw [hdispatched, hadded]
    exact hdrained hd
  · obtain ⟨rfl, hclose⟩ := h.removingClose_of_returned hd hs hreturned
    obtain ⟨hheld, hdispatched, hadded, hfifo⟩ := h.held_of_removingClose hclose hs
    have hnone : w.thread.job?.toList.filter Job.shutsDown = [] := by
      refine List.filter_eq_nil_iff.mpr fun job hjob => ?_
      rw [Option.mem_toList] at hjob
      simp [hn hclose job ((hheld job).mp hjob)]
    rw [hnone, List.append_nil] at hfifo
    rw [hdispatched, hadded]
    exact hfifo

/-- The close job of the destructor about the connection to `n` is not dispatched. -/
def Pending (w : Teardown) (n : NodeId) : Prop :=
  (∃ i, w.destructor = .closing i ∧ i ≤ n.toNat) ∨
    .closeConnection n true true ∈ w.thread.job?.toList ++ w.manager.jobQueue

/-- The connection to `n` the destructor found is closed, or its close job is to come. -/
def Closes (w : Teardown) (n : NodeId) : Prop :=
  w.manager.connections n = none ∨ w.Pending n

/-- The connections the destructor found. -/
structure Closing (w : Teardown) : Prop extends Holds w where
  inPlace : w.manager.InPlace
  fresh : w.destructor = .notCalled → ∀ n, w.started n = none
  closes : w.destructor ≠ .returned → ∀ n, n ≠ nodeIdInvalid → w.started n ≠ none → w.Closes n
  closed : w.destructor = .returned → ∀ n, n ≠ nodeIdInvalid → w.started n ≠ none →
    w.manager.connections n = none

/-- The close jobs added are about entries of the tables. -/
def InTable (w : Teardown) : Prop :=
  ∀ job ∈ w.added, ∃ n, job = .closeConnection n true true ∧ n ≠ nodeIdInvalid

/-- A connection the loop of the destructor finds is connected, to the node it is kept under. -/
def Connected (w : Teardown) : Action → Prop
  | .destruct => ∀ i c, w.destructor = .closing i → i < nodeIdMaxNumNodes →
      w.manager.connections (UInt16.ofNat i) = some c → c.getRemoteNodeId = UInt16.ofNat i
  | _ => True

/-- The step of the destructor finds no connection that is not connected, and leaves no close
job without a dispatcher. -/
def InOrder (w : Teardown) (a : Action) : Prop := Connected w a ∧ NoneWaits w a

/-- What the destructor is for: its close jobs are about entries of the tables, the job
thread gets past them, and once it has returned they are dispatched and every connection it
found is closed. -/
structure Drains (w : Teardown) : Prop where
  inTable : w.InTable
  goesOn : ∀ job, w.thread = .dispatch (some job) → job.shutsDown = true →
    ∀ env, w.runLoop env ≠ none
  drained : w.Drained
  closed : w.destructor = .returned → ∀ n, n ≠ nodeIdInvalid → w.started n ≠ none →
    w.manager.connections n = none

/-- The queue grows and connections are removed. -/
theorem Closes.of_le {n : NodeId} (h : w.Closes n)
    (hc : w'.manager.connections n = w.manager.connections n ∨ w'.manager.connections n = none)
    (hpending : w.Pending n → w'.manager.connections n = none ∨ w'.Pending n) :
    w'.Closes n := by
  rcases h with hnone | hp
  · rcases hc with hsame | hnone'
    · exact Or.inl (hsame.trans hnone)
    · exact Or.inl hnone'
  · exact hpending hp

/-- A job is dispatched while the manager shuts down. -/
theorem Closes.dispatched {n : NodeId} (h : w.Closes n)
    {env : Environment} {job : Job} {m : ConnectionManager} {dispatched : List Job}
    (hd : Dispatched env w.manager job m) (hflag : w.manager.flagShutdown = true)
    (hheld : ∀ j, w.thread.job? = some j → j = job) :
    Closes { w with manager := m, thread := .unlock, dispatched := dispatched } n := by
  refine h.of_le ((hd.connections_of_shutdown hflag).2 n) fun hpending => ?_
  obtain ⟨jobs, hq, -⟩ := hd.exists_jobQueue
  rcases hpending with hi | hmem
  · exact Or.inr (Or.inl hi)
  · rcases List.mem_append.mp hmem with hmem | hmem
    · rw [Option.mem_toList] at hmem
      obtain rfl := hheld _ hmem
      exact Or.inl hd.connections_of_close.1
    · refine Or.inr (Or.inr (List.mem_append_right _ ?_))
      rw [hq]
      exact List.mem_append_left _ hmem

/-- The destructor was called, if it found a connection. -/
theorem Closing.flag_of_started (h : w.Closing) {n : NodeId} (hstarted : w.started n ≠ none) :
    w.manager.flagShutdown = true :=
  h.flag fun hcalled => hstarted (h.fresh hcalled n)

/-- A step that leaves the destructor where it is. -/
theorem Closing.of_closes (h : w.Closing) (hw : w'.Holds) (hplace : w'.manager.InPlace)
    (hd : w'.destructor = w.destructor) (hstarted : w'.started = w.started)
    (hc : ∀ n, w.started n ≠ none → w'.manager.connections n = w.manager.connections n ∨
      w'.manager.connections n = none)
    (hcloses : ∀ n, w.started n ≠ none → w.Closes n → w'.Closes n) : w'.Closing where
  toHolds := hw
  inPlace := hplace
  fresh hcalled n := by
    rw [hstarted]
    exact h.fresh (hd ▸ hcalled) n
  closes hnot n hn hsome := by
    rw [hstarted] at hsome
    exact hcloses n hsome (h.closes (hd ▸ hnot) n hn hsome)
  closed hreturned n hn hsome := by
    rw [hstarted] at hsome
    rcases hc n hsome with hsame | hnone
    · rw [hsame]
      exact h.closed (hd ▸ hreturned) n hn hsome
    · exact hnone

theorem Closing.runLoop (h : w.Closing) {env : Environment} (hs : w.runLoop env = some w') :
    w'.Closing := by
  have hw := h.toHolds.runLoop hs
  cases h.ran hs with
  | idle hthread hq =>
    refine h.of_closes hw h.inPlace rfl rfl (fun _ _ => Or.inl rfl) fun n _ hcl => ?_
    refine hcl.of_le (Or.inl rfl) fun hpending => Or.inr (hpending.imp_right fun hmem => ?_)
    rw [hthread, hq] at hmem
    cases hmem
  | @popped job jobQueue hthread hq =>
    refine h.of_closes hw h.inPlace rfl rfl (fun _ _ => Or.inl rfl) fun n _ hcl => ?_
    refine hcl.of_le (Or.inl rfl) fun hpending => Or.inr (hpending.imp_right fun hmem => ?_)
    rw [hthread, hq] at hmem
    exact hmem
  | locked hthread =>
    refine h.of_closes hw h.inPlace rfl rfl (fun _ _ => Or.inl rfl) fun n _ hcl => ?_
    refine hcl.of_le (Or.inl rfl) fun hpending => Or.inr (hpending.imp_right fun hmem => ?_)
    rw [hthread] at hmem
    exact hmem
  | idleHandled hthread hd =>
    refine h.of_closes hw (h.inPlace.dispatched hd) rfl rfl (fun n hstarted => ?_)
      fun n hstarted hcl => ?_
    · exact (hd.connections_of_shutdown (h.flag_of_started hstarted)).2 n
    · exact hcl.dispatched hd (h.flag_of_started hstarted) (by simp [hthread, RunLoop.job?])
  | @handled job m hthread hits hd =>
    refine h.of_closes hw (h.inPlace.dispatched hd) rfl rfl (fun n hstarted => ?_)
      fun n hstarted hcl => ?_
    · exact (hd.connections_of_shutdown (h.flag_of_started hstarted)).2 n
    · exact hcl.dispatched hd (h.flag_of_started hstarted)
        (by simp [hthread, RunLoop.job?, eq_comm])
  | @deleted job hthread hits =>
    by_cases hreturned : w.destructor = .returned
    · exact ⟨hw, h.inPlace, h.fresh, fun hnot => absurd hreturned hnot, h.closed⟩
    · refine h.of_closes hw h.inPlace rfl rfl (fun _ _ => Or.inl rfl) fun n _ hcl => ?_
      refine hcl.of_le (Or.inl rfl) fun hpending => Or.inr (hpending.imp_right fun hmem => ?_)
      rw [hthread] at hmem
      rcases List.mem_append.mp hmem with hmem | hmem
      · -- the dispatcher of the close jobs is still there
        rw [RunLoop.job?, Option.toList_some, List.mem_singleton] at hmem
        rw [h.table, ← hmem] at hits
        simp [Job.jobType, Destructor.removed, hreturned] at hits
      · exact List.mem_append_right _ hmem
  | unlocked hthread =>
    refine h.of_closes hw h.inPlace rfl rfl (fun _ _ => Or.inl rfl) fun n _ hcl => ?_
    refine hcl.of_le (Or.inl rfl) fun hpending => Or.inr (hpending.imp_right fun hmem => ?_)
    rw [hthread] at hmem
    exact hmem

/-- The loop over the table passes an entry. -/
theorem Closes.advance {n : NodeId} (h : w.Closes n) {d : Destructor}
    (hd : ∀ i, w.destructor = .closing i → i ≤ n.toNat → w.manager.connections n ≠ none →
      ∃ k, d = .closing k ∧ k ≤ n.toNat) :
    Closes { w with destructor := d } n := by
  rcases h with hnone | ⟨i, hi, hle⟩ | hmem
  · exact Or.inl hnone
  · by_cases hnone : w.manager.connections n = none
    · exact Or.inl hnone
    · exact Or.inr (Or.inl (hd i hi hle hnone))
  · exact Or.inr (Or.inr hmem)

/-- The loop over the table adds the close job of an entry. -/
theorem Closes.addJob {i : Nat} {c : Connection} (hd : w.destructor = .closing i)
    (hc : c.getRemoteNodeId = UInt16.ofNat i) {added : List Job} {n : NodeId} (h : w.Closes n) :
    Closes { w.addJob (.closeConnection c.getRemoteNodeId true true) with
      destructor := .closing (i + 1), added := added } n := by
  rcases h with hnone | ⟨k, hk, hle⟩ | hmem
  · exact Or.inl hnone
  · obtain rfl : i = k := by simpa [hd] using hk
    refine Or.inr ?_
    by_cases heq : i = n.toNat
    · -- the entry the loop reads
      refine Or.inr (List.mem_append_right _ (List.mem_append_right _ ?_))
      rw [hc, heq, UInt16.ofNat_toNat]
      exact List.mem_singleton_self _
    · exact Or.inl ⟨i + 1, rfl, by omega⟩
  · refine Or.inr (Or.inr ?_)
    simp only [Teardown.addJob]
    rw [← List.append_assoc]
    exact List.mem_append_left _ hmem

theorem Closing.destruct (h : w.Closing) (hn : NoneWaits w .destruct)
    (hconnected : Connected w .destruct) (hs : w.destruct = some w') : w'.Closing := by
  have hw := h.toHolds.destruct hs
  -- a step that only moves the destructor on, before it returns
  have hadvance : ∀ {d : Destructor}, w' = { w with destructor := d } → d ≠ .notCalled →
      d ≠ .returned → w.destructor ≠ .returned →
      (∀ n i, n ≠ nodeIdInvalid → w.destructor = .closing i → i ≤ n.toNat →
        w.manager.connections n ≠ none → ∃ k, d = .closing k ∧ k ≤ n.toNat) → w'.Closing := by
    rintro d rfl hcalled hreturned hnot hpending
    exact ⟨hw, h.inPlace, fun h => absurd h hcalled,
      fun _ n hne hsome => (h.closes hnot n hne hsome).advance
        fun i hi hle hc => hpending n i hne hi hle hc, fun h => absurd h hreturned⟩
  cases destructs hs with
  | called hd =>
    refine ⟨hw, h.inPlace, fun hcalled => ?_, fun _ n hne hsome => ?_, fun hreturned => ?_⟩
    · cases hcalled
    · exact Or.inr (Or.inl ⟨0, rfl, Nat.zero_le _⟩)
    · cases hreturned
  | @skipped i hd hc =>
    refine hadvance rfl (by simp) (by simp) (by simp [hd]) fun n k hne hk hle hsome => ?_
    obtain rfl : i = k := by simpa [hd] using hk
    refine ⟨i + 1, rfl, Nat.lt_of_le_of_ne hle fun heq => hsome ?_⟩
    rw [heq, UInt16.ofNat_toNat] at hc
    exact hc
  | @closes i c hd hi hc =>
    refine ⟨hw, h.inPlace, fun hcalled => ?_, fun _ n hne hsome => ?_, fun hreturned => ?_⟩
    · cases hcalled
    · exact (h.closes (by simp [hd]) n hne hsome).addJob hd (hconnected i c hd hi hc)
    · cases hreturned
  | @passed i hd hi =>
    refine hadvance rfl (by simp) (by simp) (by simp [hd]) fun n k hne hk hle _ => ?_
    obtain rfl : i = k := by simpa [hd] using hk
    have hlt := toNat_lt_of_ne_invalid hne
    omega
  | waits hd => exact h
  | emptied hd hq =>
    exact hadvance rfl (by simp) (by simp) (by simp [hd]) (by simp [hd])
  | removedExchange hd =>
    exact hadvance rfl (by simp) (by simp) (by simp [hd]) (by simp [hd])
  | @removed t next hd hlocked =>
    obtain ⟨hwaited, hnot, -, hnext⟩ := hd.waited
    refine ⟨hw, h.inPlace, fun hcalled => ?_, fun _ n hne hsome => ?_,
      fun hreturned n hne hsome => ?_⟩
    · exact absurd hcalled hnext
    · refine (h.closes hnot n hne hsome).of_le (Or.inl rfl) fun hpending => Or.inr ?_
      refine hpending.imp_left fun ⟨i, hi, _⟩ => ?_
      rw [hi] at hwaited
      cases hwaited
    · obtain ⟨-, hclose⟩ := h.toHolds.removingClose_of_returned (a := .destruct) hnot hs hreturned
      obtain ⟨hheld, -⟩ := h.toHolds.held_of_removingClose hclose hs
      rcases h.closes hnot n hne hsome with hnone | ⟨i, hi, -⟩ | hmem
      · exact hnone
      · rw [hclose] at hi
        cases hi
      · -- its close job is neither queued nor waiting
        rcases List.mem_append.mp hmem with hmem | hmem
        · rw [Option.mem_toList] at hmem
          have hdown := hn hclose _ ((hheld _).mp hmem)
          cases hdown
        · have hdown := h.waited hwaited _ hmem
          cases hdown

theorem Closing.step (h : w.Closing) (hn : NoneWaits w a) (hc : Connected w a)
    (hs : Teardown.step w a = some w') : w'.Closing := by
  cases a with
  | requestCreation n | giveUpCreation n =>
    have hw := h.toHolds.step hs
    obtain rfl := Option.some.inj hs
    refine h.of_closes hw h.inPlace rfl rfl (fun _ _ => Or.inl rfl) fun n _ hcl => ?_
    exact hcl.of_le (Or.inl rfl) Or.inr
  | addJob job =>
    have hw := h.toHolds.step hs
    simp only [Teardown.step] at hs
    split at hs
    · cases hs
    · obtain rfl := Option.some.inj hs
      refine h.of_closes hw h.inPlace rfl rfl (fun _ _ => Or.inl rfl) fun n _ hcl => ?_
      refine hcl.of_le (Or.inl rfl) fun hpending => Or.inr (hpending.imp_right fun hmem => ?_)
      simp only [Teardown.addJob]
      rw [← List.append_assoc]
      exact List.mem_append_left _ hmem
  | runLoop env => exact h.runLoop hs
  | destruct => exact h.destruct hn hc hs

/-- The job thread gets past the close jobs of the destructor. -/
theorem Holds.goesOn (h : w.Holds) (hin : w.InTable) {job : Job}
    (hthread : w.thread = .dispatch (some job)) (hdown : job.shutsDown = true)
    (env : Environment) : w.runLoop env ≠ none := by
  have hits := h.dispatchers job.jobType
  obtain ⟨m, hm⟩ : ∃ m, (dispatchJobs env job (w.dispatcher job.jobType)).run w.manager =
      .ok () m := by
    by_cases hreturned : w.destructor = .returned
    · rw [h.table, job.jobType_of_shutsDown hdown]
      exact ⟨w.manager, by simp [Destructor.removed, hreturned, dispatchJobs]⟩
    · have hmem : job ∈ w.added := by
        rw [← h.fifo hreturned, hthread]
        refine List.mem_append_right _ (List.mem_filter.mpr ⟨?_, hdown⟩)
        exact List.mem_append_left _ (by simp [RunLoop.job?])
      obtain ⟨n, rfl, hn⟩ := hin job hmem
      exact exists_run_dispatchJobs_close env hn hits w.manager
  simp only [Teardown.runLoop, hthread, hm]
  simp

/-! ## Shutdown -/

theorem Closing.drains (h : w.Closing) (hin : w.InTable) (hdrained : w.Drained) : w.Drains where
  inTable := hin
  goesOn _ hthread hdown := h.toHolds.goesOn hin hthread hdown
  drained := hdrained
  closed := h.closed

/-- The steps for one of the connection manager, between two jobs. -/
def ofManager : ConnectionManager.Action → List Action
  | .requestCreation n => [.requestCreation n]
  | .giveUpCreation n => [.giveUpCreation n]
  | .addJob job => [.addJob job]
  | .runJob env => List.replicate 4 (.runLoop env)
  | .shutdown => []

/-- The step is not one of the destructor, and its job is about entries of the tables. -/
def undisturbed (m : ConnectionManager) : ConnectionManager.Action → Bool
  | .requestCreation _ => true
  | .giveUpCreation _ => true
  | .addJob job => !job.shutsDown
  | .runJob _ =>
    match m.jobQueue with
    | [] => true
    | job :: jobQueue => !job.pastEnd { m with jobQueue }
  | .shutdown => false

section
variable {m : ConnectionManager} {n : NodeId} {c : Connection}

/-- The job thread runs the oldest job. -/
theorem exec_runJob {env : Environment} {job : Job} {jobQueue : List Job}
    (hthread : w.thread = .popFront) (hits : w.dispatcher job.jobType = [job.jobType.owner])
    (hq : w.manager.jobQueue = job :: jobQueue)
    (hrun : (dispatchJobs env job [job.jobType.owner]).run { w.manager with jobQueue } =
      .ok () m) :
    Lts.exec step w (List.replicate 4 (.runLoop env)) = some { w with
      manager := m
      dispatched := w.dispatched ++
        if .connectionManager ∈ w.dispatcher job.jobType then [job] else [] } := by
  simp only [List.replicate, Lts.exec, step, runLoop, hthread, hq, hits, hrun]

/-- Until the destructor is called, the connection manager takes its own steps. -/
theorem exec_ofManager {as : List ConnectionManager.Action} (hthread : w.thread = .popFront)
    (hits : ∀ t, w.dispatcher t = [t.owner])
    (hrun : Lts.exec ConnectionManager.step w.manager as = some m)
    (hp : Lts.Along ConnectionManager.step (fun m a => undisturbed m a = true) w.manager as) :
    ∃ dispatched, Lts.exec step w (as.flatMap ofManager) =
      some { w with manager := m, dispatched } := by
  induction as generalizing w with
  | nil =>
    obtain rfl := Option.some.inj hrun
    exact ⟨w.dispatched, rfl⟩
  | cons a as ih =>
    obtain ⟨m₁, hstep, hrest⟩ := Lts.exec_cons_eq_some.mp hrun
    obtain ⟨ha, hrest'⟩ := Lts.along_cons.mp hp
    obtain ⟨dispatched₁, hfirst⟩ : ∃ dispatched, Lts.exec step w (ofManager a) =
        some { w with manager := m₁, dispatched } := by
      cases a with
      | requestCreation n | giveUpCreation n =>
        obtain rfl := Option.some.inj hstep
        exact ⟨w.dispatched, rfl⟩
      | addJob job =>
        obtain rfl := Option.some.inj hstep
        have hdown : job.shutsDown = false := by simpa [undisturbed] using ha
        exact ⟨w.dispatched, by simp [ofManager, Lts.exec, step, hdown, Teardown.addJob]⟩
      | runJob env =>
        unfold ConnectionManager.step at hstep
        cases hq : w.manager.jobQueue with
        | nil => simp [hq] at hstep
        | cons job jobQueue =>
          have hin : job.pastEnd { w.manager with jobQueue } = false := by
            simpa [undisturbed, hq] using ha
          simp only [hq] at hstep
          split at hstep
          · next m' hjob =>
            obtain rfl := Option.some.inj hstep
            refine ⟨_, exec_runJob hthread (hits _) hq ?_⟩
            rw [run_dispatchJobs_owner, hin]
            exact hjob
          · cases hstep
      | shutdown => simp [undisturbed] at ha
    obtain ⟨dispatched, hlast⟩ := ih (w := { w with manager := m₁, dispatched := dispatched₁ })
      hthread hits hrest (hrest' m₁ hstep)
    exact ⟨dispatched, by
      rw [List.flatMap_cons]
      exact Lts.exec_append_eq_some.mpr ⟨_, hfirst, hlast⟩⟩

theorem along_of_ne_destruct {as : List Action} (h : ∀ a ∈ as, a ≠ .destruct) (w : Teardown) :
    Lts.Along step InOrder w as := by
  refine (Lts.along_of_forall_mem h w).imp (I := fun _ => True) (fun v a _ ha => ?_)
    (fun _ _ _ _ _ _ => trivial) trivial
  cases a with
  | destruct => exact absurd rfl ha
  | requestCreation | giveUpCreation | addJob | runLoop => exact ⟨trivial, trivial⟩

/-- The destructor alone, up to its wait, with a connection to `n`. -/
def closingRun (n : NodeId) : List Action :=
  .destruct :: List.replicate n.toNat .destruct ++
    .destruct :: List.replicate (nodeIdMaxNumNodes - (n.toNat + 1)) .destruct ++ [.destruct]

/-- The loop over the table passes `k` entries without a connection. -/
theorem exec_skipped {i : Nat} (hd : w.destructor = .closing i) {k : Nat}
    (hk : i + k ≤ nodeIdMaxNumNodes)
    (hnone : ∀ j, i ≤ j → j < i + k → w.manager.connections (UInt16.ofNat j) = none) :
    Lts.exec step w (List.replicate k .destruct) =
        some { w with destructor := .closing (i + k) } ∧
      Lts.Along step InOrder w (List.replicate k .destruct) := by
  induction k generalizing w i with
  | zero =>
    rw [Nat.add_zero, ← hd]
    exact ⟨rfl, trivial⟩
  | succ k ih =>
    have hi := hnone i (Nat.le_refl _) (by omega)
    have hstep : step w .destruct = some { w with destructor := .closing (i + 1) } := by
      simp only [step, destruct, hd]
      rw [if_pos (by omega), hi]
    have horder : InOrder w .destruct := by
      refine ⟨fun j c hj _ hc => ?_, fun hclose => ?_⟩
      · rw [hd, Destructor.closing.injEq] at hj
        rw [← hj, hi] at hc
        cases hc
      · rw [hd] at hclose
        cases hclose
    obtain ⟨hrest, hrest'⟩ := ih (w := { w with destructor := .closing (i + 1) }) rfl (by omega)
      fun j hle hlt => hnone j (by omega) (by omega)
    rw [List.replicate_succ]
    refine ⟨?_, Lts.along_cons.mpr ⟨horder, fun v hv => ?_⟩⟩
    · rw [Lts.exec, hstep]
      simp only
      rw [hrest, show i + 1 + k = i + (k + 1) by omega]
    · obtain rfl := Option.some.inj (hstep.symm.trans hv)
      exact hrest'

theorem exec_closingRun (hd : w.destructor = .notCalled) (hq : w.manager.jobQueue = [])
    (hn : n ≠ nodeIdInvalid) (hc : w.manager.connections n = some c)
    (hothers : ∀ k, k ≠ n → w.manager.connections k = none) :
    Lts.exec step w (closingRun n) = some { w with
        manager := { w.manager with
          flagShutdown := true
          jobQueue := [.closeConnection c.getRemoteNodeId true true] }
        started := w.manager.connections
        destructor := .waiting
        added := w.added ++ [.closeConnection c.getRemoteNodeId true true] } ∧
      (c.getRemoteNodeId = n → Lts.Along step InOrder w (closingRun n)) := by
  have hlt := toNat_lt_of_ne_invalid hn
  have hnone : ∀ j, j < nodeIdMaxNumNodes → j ≠ n.toNat →
      w.manager.connections (UInt16.ofNat j) = none := by
    intro j hj hne
    refine hothers _ fun heq => hne ?_
    rw [← heq, UInt16.toNat_ofNat_of_lt' (Nat.lt_of_lt_of_le hj (by decide))]
  let v : Teardown := { w with
    manager := { w.manager with flagShutdown := true }
    started := w.manager.connections
    destructor := .closing 0 }
  let job := Job.closeConnection c.getRemoteNodeId true true
  have hcalled : step w .destruct = some v := by simp only [step, destruct, hd, v]
  have hget : v.manager.connections (UInt16.ofNat (0 + n.toNat)) = some c := by
    rw [Nat.zero_add, UInt16.ofNat_toNat]
    exact hc
  obtain ⟨hbefore, hbefore'⟩ := exec_skipped (w := v) (i := 0) rfl (k := n.toNat) (by omega)
    fun j _ hj => hnone j (by omega) (by omega)
  have hentry : step { v with destructor := .closing (0 + n.toNat) } .destruct =
      some { v.addJob job with
        destructor := .closing (0 + n.toNat + 1)
        added := v.added ++ [job] } := by
    simp only [step, destruct]
    rw [if_pos (by omega), hget]
    rfl
  obtain ⟨hafter, hafter'⟩ := exec_skipped (w := { v.addJob job with
      destructor := .closing (0 + n.toNat + 1)
      added := v.added ++ [job] }) rfl (k := nodeIdMaxNumNodes - (n.toNat + 1)) (by omega)
    fun j _ hj => hnone j (by omega) (by omega)
  have hend : 0 + n.toNat + 1 + (nodeIdMaxNumNodes - (n.toNat + 1)) = nodeIdMaxNumNodes := by
    omega
  rw [hend] at hafter
  have hqueue : v.manager.jobQueue ++ [job] = [job] := by
    rw [show v.manager.jobQueue = [] from hq, List.nil_append]
  have hloop := Lts.exec_append_eq_some.mpr ⟨_, Lts.exec_cons_eq_some.mpr ⟨v, hcalled, hbefore⟩,
    Lts.exec_cons_eq_some.mpr ⟨_, hentry, hafter⟩⟩
  refine ⟨Lts.exec_append_eq_some.mpr ⟨_, hloop, ?_⟩, fun hconnected => ?_⟩
  · simp only [addJob, hqueue]
    rfl
  · refine Lts.along_append.mpr ⟨Lts.along_append.mpr ⟨Lts.along_cons.mpr ⟨?_, fun u hu => ?_⟩,
      fun u hu => Lts.along_cons.mpr ⟨?_, fun u' hu' => ?_⟩⟩, fun u hu => ?_⟩
    · exact ⟨fun i c hi => by simp [hd] at hi, fun hclose => by simp [hd] at hclose⟩
    · obtain rfl := Option.some.inj (hcalled.symm.trans hu)
      exact hbefore'
    · obtain rfl := Option.some.inj
        ((Lts.exec_cons_eq_some.mpr ⟨v, hcalled, hbefore⟩).symm.trans hu)
      refine ⟨fun i c' hi _ hc' => ?_, fun hclose => by cases hclose⟩
      obtain rfl := Destructor.closing.inj hi
      obtain rfl := Option.some.inj (hget.symm.trans hc')
      rw [hconnected, Nat.zero_add, UInt16.ofNat_toNat]
    · obtain rfl := Option.some.inj
        ((Lts.exec_cons_eq_some.mpr ⟨v, hcalled, hbefore⟩).symm.trans hu)
      obtain rfl := Option.some.inj (hentry.symm.trans hu')
      exact hafter'
    · obtain rfl := Option.some.inj (hloop.symm.trans hu)
      refine Lts.along_cons.mpr ⟨⟨fun i c hi hlt => ?_, fun hclose => by cases hclose⟩,
        fun _ _ => trivial⟩
      obtain rfl := Destructor.closing.inj hi
      exact absurd hlt (Nat.lt_irrefl _)

end

/-- Node 2 is connected, and the manager is idle. -/
def exampleConnected : List ConnectionManager.Action :=
  ConnectionManager.exampleCreation ++
    [.addJob (.connectConnection (ConnectionManager.exampleRemote 3 1 0x22)), .runJob {}]

/-- The only id that is not available is the one node 2 holds. -/
theorem connections_of_ids {m : ConnectionManager}
    (hm : Lts.Reachable ConnectionManager.step (.new ConnectionManager.exampleParams) m)
    (hids : m.availableConnectionIds = [3, 2, 1]) (htwo : m.connectionIdAt 2 = some 0)
    {k : NodeId} (hk : k ≠ 2) : m.connections k = none := by
  have hpartition := ConnectionManager.partition hm
  by_contra hne
  obtain ⟨c, hc⟩ := Option.ne_none_iff_exists'.mp hne
  have hat : m.connectionIdAt k = some c.connectionId := by
    simp [ConnectionManager.connectionIdAt, hc]
  have hlt : c.connectionId < 4 :=
    (hpartition.exact c.connectionId).mpr (Or.inr ⟨k, hat⟩)
  have hnot := hpartition.disjoint hat
  rw [hids] at hnot
  have hzero : c.connectionId = 0 := by
    simp only [List.mem_cons, List.not_mem_nil, or_false, not_or, ← UInt16.toNat_inj] at hnot
    rw [UInt16.lt_iff_toNat_lt] at hlt
    rw [← UInt16.toNat_inj]
    simp at hlt hnot ⊢
    omega
  exact hk (hpartition.distinct hat (hzero ▸ htwo))

/-- A run up to the wait of the destructor, from one of the manager of the example that ends
with an empty queue and a connection to node 2. -/
theorem exists_example (as : List ConnectionManager.Action) (c : Connection)
    (hrun : (Lts.exec ConnectionManager.step (.new ConnectionManager.exampleParams) as).map
      (fun m => (m.jobQueue, m.connections 2, m.availableConnectionIds)) =
        some ([], some c, [3, 2, 1])) (hid : c.connectionId = 0)
    (hp : Lts.Along ConnectionManager.step (fun m a => undisturbed m a = true)
      (.new ConnectionManager.exampleParams) as) :
    ∃ w, Lts.exec step (init (.new ConnectionManager.exampleParams))
        (as.flatMap ofManager ++ closingRun 2) = some w ∧
      (c.getRemoteNodeId = 2 → Lts.Along step InOrder
        (init (.new ConnectionManager.exampleParams)) (as.flatMap ofManager ++ closingRun 2)) ∧
      w.thread = .popFront ∧ w.destructor = .waiting ∧ (∀ t, w.dispatcher t = [t.owner]) ∧
      w.manager.jobQueue = [.closeConnection c.getRemoteNodeId true true] ∧
      w.added = [.closeConnection c.getRemoteNodeId true true] ∧ w.started 2 = some c ∧
      w.manager.connections 2 = some c := by
  obtain ⟨m, hm, h⟩ := Option.map_eq_some_iff.mp hrun
  simp only [Prod.mk.injEq] at h
  obtain ⟨hq, hc, hids⟩ := h
  have htwo : m.connectionIdAt 2 = some 0 := by
    simp [ConnectionManager.connectionIdAt, hc, hid]
  obtain ⟨dispatched, hbefore⟩ := exec_ofManager
    (w := init (.new ConnectionManager.exampleParams)) rfl (fun _ => rfl) hm hp
  obtain ⟨hclosing, halong⟩ := exec_closingRun
    (w := { init (.new ConnectionManager.exampleParams) with manager := m, dispatched })
    rfl hq (by decide) hc fun k hk => connections_of_ids ⟨_, hm⟩ hids htwo hk
  refine ⟨_, Lts.exec_append_eq_some.mpr ⟨_, hbefore, hclosing⟩, fun hconnected =>
    Lts.along_append.mpr ⟨along_of_ne_destruct ?_ _, fun v hv => ?_⟩, rfl, rfl, fun _ => rfl, rfl,
    rfl, hc, hc⟩
  · intro a ha
    obtain ⟨b, -, hb⟩ := List.mem_flatMap.mp ha
    rintro rfl
    cases b <;> simp [ofManager] at hb
  · obtain rfl := Option.some.inj (hbefore.symm.trans hv)
    exact halong hconnected

/-- Node 2 has not answered yet when the destructor is called.  Its close job is about the
invalid node id, and the job thread does not get past it. -/
theorem close_of_unconnected_faults :
    ∃ as w job, Lts.exec step (init (.new ConnectionManager.exampleParams)) as = some w ∧
      w.started 2 ≠ none ∧ job ∈ w.added ∧ w.thread = .dispatch (some job) ∧
      ∀ env, w.runLoop env = none := by
  obtain ⟨v, hv, -, hthread, hd, hits, hq, hadded, hstarted, hc⟩ :=
    exists_example (ConnectionManager.exampleCreation.take 5)
      { connectionId := 0, ibPhysicalQPId := 0, ibPsn := 0 } (by decide +kernel) rfl
      (by decide +kernel)
  have hpop : Lts.exec step v [.runLoop {}, .runLoop {}] = some { v with
      manager := { v.manager with jobQueue := [] }
      thread := .dispatch (some (.closeConnection nodeIdInvalid true true)) } := by
    simp only [Lts.exec, step, runLoop, hthread, hq]
    rfl
  refine ⟨_, _, .closeConnection nodeIdInvalid true true,
    Lts.exec_append_eq_some.mpr ⟨v, hv, hpop⟩, by simp [hstarted], ?_, rfl, fun env => ?_⟩
  · simp only [hadded]
    exact List.mem_singleton_self _
  · have hrun := run_dispatchJobs_owner env (.closeConnection nodeIdInvalid true true)
      { v.manager with jobQueue := [] }
    simp only [runLoop, hits]
    rw [hrun]
    rfl

end Teardown

end Ibdxnet.Con
