import Ibdxnet.Connection.ConnectionSteps
import Ibdxnet.Lib.Lts
import Ibdxnet.Lib.Sums

/-!
# Handles to one connection

`GetConnection`, `ReturnConnection` and the jobs about one node `n`, one access
of the shared words at a time: each atomic operation on `m_available`,
`m_state` and `m_triggerReExchange`, and each access to `m_connections[n]`, is a
step.  Any number of threads `T` call `GetConnection` and `ReturnConnection`;
the job thread runs one job after the other.

`GetConnection` increments `m_available`, and resets it when there is no
connection.  A close job swaps in `CONNECTION_CLOSING` and waits until the
handles counted by the value it swapped out are returned.

    handles   the increments that stand for a handle: those of the threads that
              still have to return it, and those given out
-/

namespace Ibdxnet.Con

/-- Where a thread stands: outside `GetConnection`, or before this access. -/
inductive ThreadPc
  | outside
  /-- `m_available.fetch_add`, to keep track of handles issued -/
  | fetchAdd
  /-- the connection is available: read `m_connections` and return it -/
  | returnAvailable
  /-- reset fetch: the compare exchange that expects `available` -/
  | resetFetch (available : Int)
  /-- the load of `m_state` -/
  | loadState
  /-- the compare exchange of `m_state` to in creation -/
  | requestCreation
  /-- the compare exchange of `m_triggerReExchange` -/
  | triggerReExchange
  /-- the create job of the thread that triggers re-transmits -/
  | addJob
  /-- the load of `m_available` of the wait loop; whether the thread triggers re-transmits -/
  | load (triggers : Bool)
  /-- the connection is available: `m_available.fetch_add` -/
  | add (triggers : Bool)
  /-- sanity check of `m_connections` -/
  | check (triggers : Bool)
  /-- read `m_connections` and return it -/
  | returnWaited (triggers : Bool)
  /-- the end of an iteration of the wait loop -/
  | yielded (triggers : Bool)
  /-- the same, after a re-transmit -/
  | retried
  /-- timed out: the compare exchange of `m_state` back from in creation -/
  | giveUpCreation
  /-- timed out: the compare exchange of `m_triggerReExchange` back -/
  | releaseTrigger
  /-- `GetConnection` returned a null pointer -/
  | nullPointer
  deriving DecidableEq, Repr

/-- One for a thread whose increment stands for a handle that it still has to return. -/
def ThreadPc.issued : ThreadPc → Nat
  | .returnAvailable | .check _ | .returnWaited _ => 1
  | _ => 0

/-- A job about the node. -/
inductive NodeJob
  | create
  | connect (remote : ConnectionExchgData)
  | close (force : Bool)
  deriving DecidableEq, Repr

/-- Which job calls `__AllocateConnection`. -/
inductive Allocation
  | create
  | connect (remote : ConnectionExchgData)
  deriving DecidableEq, Repr

/-- Where the job thread stands: between two jobs, or before this access. -/
inductive JobPc
  | idle
  /-- create job: the load of `m_state` -/
  | loadState
  /-- `__AllocateConnection`: the read of `m_connections` -/
  | allocate (job : Allocation)
  /-- `__AllocateConnection`: make the connection visible -/
  | setConnection (job : Allocation)
  /-- `__AllocateConnection`: the store to `m_state` -/
  | setCreated (job : Allocation)
  /-- `__SendConnectionExchgData` -/
  | send
  /-- connect job: the sanity check and the exchange flags -/
  | learn (remote : ConnectionExchgData)
  /-- connect job: the compare exchange of `m_state` to connected -/
  | complete (remote : ConnectionExchgData)
  /-- connect job: the check for a zombie connection -/
  | checkIdent (remote : ConnectionExchgData)
  /-- connect job: the store of `CONNECTION_AVAILABLE` -/
  | publish
  /-- close job: the exchange of `m_available` -/
  | exchange (force : Bool)
  /-- close job: the load of the wait loop -/
  | wait (counter : Int)
  /-- close job: the read of `m_connections` -/
  | readConnection
  /-- close job: the write of `m_connections`, after this was read -/
  | removeConnection (connection : Option Connection)
  /-- close job: the stores to the flags and to `m_state` -/
  | resetState
  /-- close job: the store of `CONNECTION_NOT_AVAILABLE` -/
  | setNotAvailable
  deriving DecidableEq, Repr

/-- What follows `__AllocateConnection`. -/
def Allocation.continue : Allocation → JobPc
  | create => .send
  | connect remote => .learn remote

/-- The first access of a job. -/
def NodeJob.start : NodeJob → JobPc
  | create => .loadState
  | connect remote => .allocate (.connect remote)
  | close force => .exchange force

structure HandleWorld (T : Type) where
  /-- `m_connectionStates[n]` -/
  state : ConnectionState := {}
  /-- `m_connections[n]` -/
  connection : Option Connection := none
  /-- the jobs about `n` in the queue, oldest first -/
  jobQueue : List NodeJob := []
  job : JobPc := .idle
  threads : T → ThreadPc := fun _ => .outside
  /-- handles `GetConnection` returned that `ReturnConnection` did not get back yet -/
  held : Nat := 0

namespace HandleWorld

variable {T : Type} [DecidableEq T]

def goTo (w : HandleWorld T) (t : T) (pc : ThreadPc) : HandleWorld T :=
  { w with threads := Function.update w.threads t pc }

def setAvailable (w : HandleWorld T) (available : Int) : HandleWorld T :=
  { w with state := { w.state with available } }

def setTrigger (w : HandleWorld T) (triggerReExchange : Bool) : HandleWorld T :=
  { w with state := { w.state with triggerReExchange } }

def addJob (w : HandleWorld T) (job : NodeJob) : HandleWorld T :=
  { w with jobQueue := w.jobQueue ++ [job] }

/-- `GetConnection` returns what it reads from `m_connections`. -/
def returnHandle (w : HandleWorld T) (t : T) : HandleWorld T :=
  match w.connection with
  | some _ => { w.goTo t .outside with held := w.held + 1 }
  | none => w.goTo t .nullPointer

/-- The next access of a thread inside `GetConnection`. -/
def access (w : HandleWorld T) (t : T) : Option (HandleWorld T) :=
  match w.threads t with
  | .outside | .nullPointer | .yielded _ | .retried => none
  | .fetchAdd =>
    some ((w.setAvailable (int32 (w.state.available + 1))).goTo t
      (if connectionAvailable ≤ w.state.available then .returnAvailable
        else .resetFetch w.state.available))
  | .returnAvailable => some (w.returnHandle t)
  | .resetFetch available =>
    if w.state.available = available then
      some ((w.setAvailable connectionNotAvailable).goTo t .loadState)
    else if connectionAvailable ≤ w.state.available then
      some (w.goTo t .loadState)
    else
      some (w.goTo t (.resetFetch w.state.available))
  | .loadState =>
    some (w.goTo t (if w.state.state ≠ .connected then .requestCreation else .load false))
  | .requestCreation =>
    some ({ w with state := w.state.requestCreation }.goTo t .triggerReExchange)
  | .triggerReExchange =>
    if w.state.triggerReExchange = false then
      some ((w.setTrigger true).goTo t .addJob)
    else
      some (w.goTo t (.load false))
  | .addJob => some ((w.addJob .create).goTo t (.load true))
  | .load triggers =>
    some (w.goTo t
      (if connectionAvailable ≤ w.state.available then .add triggers else .yielded triggers))
  | .add triggers =>
    some ((w.setAvailable (int32 (w.state.available + 1))).goTo t (.check triggers))
  | .check triggers =>
    -- a thread that finds no connection throws
    some (w.goTo t (if w.connection = none then .outside else .returnWaited triggers))
  | .returnWaited _ => some (w.returnHandle t)
  | .giveUpCreation =>
    some ({ w with state := w.state.giveUpCreation }.goTo t .releaseTrigger)
  | .releaseTrigger =>
    -- `m_triggerReExchange` is false afterwards whether the exchange succeeds or not
    some ((w.setTrigger false).goTo t .outside)

/-- The next access of the job thread inside a job.  `created` is what
`_CreateConnection` returns.  A job that throws ends the process. -/
def jobAccess (w : HandleWorld T) (created : Connection) : Option (HandleWorld T) :=
  match w.job with
  | .idle => none
  | .loadState =>
    some { w with job := if w.state.state = .inCreation then .allocate .create else .send }
  | .allocate job =>
    some { w with job := if w.connection = none then .setConnection job else job.continue }
  | .setConnection job => some { w with connection := some created, job := .setCreated job }
  | .setCreated job =>
    some { w with state := { w.state with state := .created }, job := job.continue }
  | .send => if w.connection = none then none else some { w with job := .idle }
  | .learn remote =>
    if w.state.state.val < State.created.val then none
    else if w.state.isConnectedToRemote = false ∧ w.connection = none then none
    else
      let l := Link.learn { state := w.state, connection := w.connection } remote
      some { w with state := l.state, connection := l.connection, job := .complete remote }
  | .complete remote =>
    if w.state.connectionExchgComplete ∧ w.state.state = .created then
      some { w with state := { w.state with state := .connected }, job := .checkIdent remote }
    else if !w.state.connectionExchgComplete ∨
        w.state.exchgFlags ≠ remote.header.exchgFlagsRemote then
      some { w with job := .send }
    else
      some { w with job := .idle }
  | .checkIdent remote =>
    match w.connection with
    | none => none
    | some connection =>
      if connection.getRemoteConnectionManIdent ≠ remote.header.conManIdent then
        some { (w.addJob (.close true)).addJob .create with job := .idle }
      else
        some { w with job := .publish }
  | .publish => some { w.setAvailable connectionAvailable with job := .idle }
  | .exchange force =>
    some { w.setAvailable connectionClosing with
      job := if force then .readConnection else .wait w.state.available }
  | .wait counter =>
    some { w with
      job := if int32 (connectionClosing - counter) = w.state.available then .readConnection
        else .wait counter }
  | .readConnection => some { w with job := .removeConnection w.connection }
  | .removeConnection connection =>
    some { w with
      connection := none
      job := if connection = none then .idle else .resetState }
  | .resetState =>
    some { w with
      state := { w.state with exchgFlags := 0, remoteExchgFlags := 0, state := .notAvailable }
      job := .setNotAvailable }
  | .setNotAvailable => some { w.setAvailable connectionNotAvailable with job := .idle }

/-! ## Runs -/

inductive Action (T : Type)
  /-- a thread calls `GetConnection` -/
  | getConnection (t : T)
  /-- a thread outside `GetConnection` calls `ReturnConnection` with a handle -/
  | returnConnection (t : T)
  | access (t : T)
  /-- a second is over since the last re-transmit -/
  | retransmit (t : T)
  /-- the wait loop goes on -/
  | waitOn (t : T)
  /-- the creation timeout is over -/
  | timeOut (t : T)
  /-- any thread adds a job: exchange data is received, `CloseConnection` is called -/
  | addJob (job : NodeJob)
  /-- the job thread takes the oldest job -/
  | takeJob
  /-- the job thread drops the oldest job: the node is not discovered, or shutting down -/
  | dropJob
  | job (created : Connection)

/-- A thread that triggers re-transmits sends the exchange data again. -/
def retransmit (w : HandleWorld T) (t : T) : Option (HandleWorld T) :=
  if w.threads t = .yielded true ∧
      (w.connection = none ∨ w.state.connectionExchgComplete = false) then
    some ((w.addJob .create).goTo t .retried)
  else
    none

def waitOn (w : HandleWorld T) (t : T) : Option (HandleWorld T) :=
  match w.threads t with
  | .yielded triggers => some (w.goTo t (.load triggers))
  | .retried => some (w.goTo t (.load true))
  | _ => none

def timeOut (w : HandleWorld T) (t : T) : Option (HandleWorld T) :=
  match w.threads t with
  | .yielded triggers => some (w.goTo t (if triggers then .giveUpCreation else .outside))
  | .retried => some (w.goTo t .giveUpCreation)
  | _ => none

def returnConnection (w : HandleWorld T) (t : T) : Option (HandleWorld T) :=
  if w.threads t = .outside ∧ 0 < w.held then
    some { w.setAvailable (int32 (w.state.available - 1)) with held := w.held - 1 }
  else
    none

def takeJob (w : HandleWorld T) : Option (HandleWorld T) :=
  match w.job, w.jobQueue with
  | .idle, job :: jobQueue => some { w with jobQueue, job := job.start }
  | _, _ => none

def dropJob (w : HandleWorld T) : Option (HandleWorld T) :=
  match w.job, w.jobQueue with
  | .idle, .create :: jobQueue | .idle, .connect _ :: jobQueue => some { w with jobQueue }
  | _, _ => none

def step (w : HandleWorld T) : Action T → Option (HandleWorld T)
  | .getConnection t => if w.threads t = .outside then some (w.goTo t .fetchAdd) else none
  | .returnConnection t => w.returnConnection t
  | .access t => w.access t
  | .retransmit t => w.retransmit t
  | .waitOn t => w.waitOn t
  | .timeOut t => w.timeOut t
  | .addJob job => some (w.addJob job)
  | .takeJob => w.takeJob
  | .dropJob => w.dropJob
  | .job created => w.jobAccess created

/-! ## Counting threads -/

section
variable (w : HandleWorld T) (t : T) (pc : ThreadPc)

@[simp] theorem goTo_state : (w.goTo t pc).state = w.state := rfl
@[simp] theorem goTo_connection : (w.goTo t pc).connection = w.connection := rfl
@[simp] theorem goTo_job : (w.goTo t pc).job = w.job := rfl
@[simp] theorem goTo_held : (w.goTo t pc).held = w.held := rfl

@[simp] theorem goTo_threads_self : (w.goTo t pc).threads t = pc := Function.update_self ..

variable [Fintype T]

/-- The total of `f` over where the threads stand. -/
def total (f : ThreadPc → Nat) (w : HandleWorld T) : Nat := ∑ t, f (w.threads t)

/-- The handles issued: on their way to the caller, or given out. -/
def handles (w : HandleWorld T) : Nat := w.held + w.total ThreadPc.issued

theorem total_update {w w' : HandleWorld T} {t : T} {pc : ThreadPc} (f : ThreadPc → Nat)
    (h : w'.threads = Function.update w.threads t pc) :
    w'.total f + f (w.threads t) = w.total f + f pc := by
  rw [total, h]
  exact Sums.sum_update f w.threads t pc

omit [DecidableEq T] in
theorem total_congr {w w' : HandleWorld T} (f : ThreadPc → Nat) (h : w'.threads = w.threads) :
    w'.total f = w.total f := by
  rw [total, h, total]

end

@[simp] theorem returnHandle_job (w : HandleWorld T) (t : T) :
    (w.returnHandle t).job = w.job := by
  unfold returnHandle
  split <;> rfl

/-- A thread leaves the job thread where it is. -/
theorem access_job {w w' : HandleWorld T} {t : T} (hs : w.access t = some w') :
    w'.job = w.job := by
  unfold access at hs
  cases hpc : w.threads t with
  | outside | nullPointer | yielded | retried => simp [hpc] at hs
  | returnAvailable | returnWaited =>
    simp only [hpc, Option.some.injEq] at hs
    exact hs ▸ returnHandle_job w t
  | resetFetch available =>
    simp only [hpc] at hs
    split at hs
    · exact Option.some.inj hs ▸ rfl
    · split at hs <;> exact Option.some.inj hs ▸ rfl
  | triggerReExchange =>
    simp only [hpc] at hs
    split at hs <;> exact Option.some.inj hs ▸ rfl
  | fetchAdd | loadState | requestCreation | addJob | load | add | check | giveUpCreation
  | releaseTrigger =>
    simp only [hpc, Option.some.injEq] at hs
    exact hs ▸ rfl

omit [DecidableEq T] in
/-- The job thread moves no thread, gives out no handle and leaves
`m_triggerReExchange` as it is. -/
theorem jobAccess_frame {w w' : HandleWorld T} {created : Connection}
    (hs : w.jobAccess created = some w') :
    w'.threads = w.threads ∧ w'.held = w.held ∧
      w'.state.triggerReExchange = w.state.triggerReExchange := by
  unfold jobAccess at hs
  cases hjob : w.job with
  | idle => simp [hjob] at hs
  | loadState | setConnection | setCreated | publish | exchange | wait | readConnection
  | removeConnection | resetState | setNotAvailable | allocate =>
    simp only [hjob, Option.some.injEq] at hs
    exact hs ▸ ⟨rfl, rfl, rfl⟩
  | send =>
    simp only [hjob] at hs
    split at hs
    · cases hs
    · exact Option.some.inj hs ▸ ⟨rfl, rfl, rfl⟩
  | learn remote =>
    simp only [hjob] at hs
    split at hs
    · cases hs
    · split at hs
      · cases hs
      · exact Option.some.inj hs ▸ ⟨rfl, rfl, rfl⟩
  | complete remote =>
    simp only [hjob] at hs
    split at hs
    · exact Option.some.inj hs ▸ ⟨rfl, rfl, rfl⟩
    · split at hs <;> exact Option.some.inj hs ▸ ⟨rfl, rfl, rfl⟩
  | checkIdent remote =>
    simp only [hjob] at hs
    split at hs
    · cases hs
    · split at hs <;> exact Option.some.inj hs ▸ ⟨rfl, rfl, rfl⟩

end HandleWorld

end Ibdxnet.Con
