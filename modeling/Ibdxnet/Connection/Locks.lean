import Ibdxnet.Lib.LockOrder

/-!
# The locks of the managers

For each function the language of its lock operations: `1` takes no lock, `*` is
one after the other, `+` a branch and `∗` a loop or a list of dispatchers.  What
a function computes is left out, so that a language has all of its runs, and more.

The threads are those of the managers and any number of others that call them:

    as long as a thread is in a call, some thread can go on     (no_deadlock)
-/

namespace Ibdxnet.Con

open LockOrder
open scoped Computability

inductive Lock
  /-- `JobManager::m_idleJobLock` -/
  | idleJob
  /-- `JobManager::m_dispatcherLock` -/
  | jobDispatcher
  /-- `ExchangeManager::m_dispatcherLock` -/
  | exchangeDispatcher
  /-- `DiscoveryManager::m_lock` -/
  | discovery
  /-- `JobManager::m_jobLock` -/
  | job
  /-- `StatisticsManager::m_mutex` -/
  | statistics
  deriving DecidableEq, Repr

namespace Lock

/-- The order in which the locks are taken. -/
def rank : Lock → ℕ
  | idleJob => 0
  | jobDispatcher => 1
  | exchangeDispatcher => 1
  | discovery => 2
  | job => 3
  | statistics => 4

abbrev Locking := Language (LockOp Lock)

namespace JobManager

/-- Pushing takes no lock, notifying does. -/
def addJob : Locking := critical job 1

def setIdleJob : Locking := critical idleJob 1

def generateJobTypeId : Locking := 1 + critical jobDispatcher 1

def addDispatcher : Locking := critical jobDispatcher 1

def removeDispatcher : Locking := critical jobDispatcher 1

/-- `wait_for` releases the lock and takes it again. -/
def runLoop (dispatchJob : Locking) : Locking :=
  critical idleJob (1 + critical jobDispatcher dispatchJob∗) *
      (critical job 1 * (1 + critical job 1)) +
    critical jobDispatcher dispatchJob∗

end JobManager

namespace ExchangeManager

def generatePaketTypeId : Locking := 1 + critical exchangeDispatcher 1

def addDispatcher : Locking := critical exchangeDispatcher 1

def removeDispatcher : Locking := critical exchangeDispatcher 1

def runLoop (dispatchExchangeData : Locking) : Locking :=
  1 + critical exchangeDispatcher dispatchExchangeData∗

end ExchangeManager

namespace DiscoveryManager

/-- Registers for three job types and two packet types. -/
def new : Locking :=
  ExchangeManager.generatePaketTypeId * ExchangeManager.generatePaketTypeId *
    JobManager.generateJobTypeId * JobManager.generateJobTypeId * JobManager.generateJobTypeId *
    ExchangeManager.addDispatcher * ExchangeManager.addDispatcher * JobManager.addDispatcher *
    JobManager.addDispatcher * JobManager.addDispatcher * JobManager.setIdleJob

def delete : Locking :=
  JobManager.setIdleJob * ExchangeManager.removeDispatcher * ExchangeManager.removeDispatcher *
    JobManager.removeDispatcher * JobManager.removeDispatcher * JobManager.removeDispatcher

def addNode : Locking := 1 + critical discovery 1

def getNodeInfo : Locking := critical discovery 1

def invalidate (listener : Locking) : Locking :=
  critical discovery 1 * (1 + JobManager.addJob) * (1 + listener)

def dispatchExchangeData : Locking := 1 + JobManager.addJob

def executeDiscovery : Locking := critical discovery 1

/-- The lock is released before the listener is called. -/
def discovered (listener : Locking) : Locking := critical discovery 1 * (1 + listener)

def dispatchJob (listener : Locking) : Locking := executeDiscovery + discovered listener + 1

end DiscoveryManager

namespace ConnectionManager

def new : Locking :=
  ExchangeManager.generatePaketTypeId * JobManager.generateJobTypeId *
    JobManager.generateJobTypeId * JobManager.generateJobTypeId * ExchangeManager.addDispatcher *
    JobManager.addDispatcher * JobManager.addDispatcher * JobManager.addDispatcher

/-- A close job for each connection. -/
def delete : Locking :=
  JobManager.addJob∗ * ExchangeManager.removeDispatcher * JobManager.removeDispatcher *
    JobManager.removeDispatcher * JobManager.removeDispatcher

/-- A create job at first, and one a second. -/
def getConnection : Locking := JobManager.addJob∗

def closeConnection : Locking := JobManager.addJob

def dispatchExchangeData : Locking := 1 + JobManager.addJob

def jobDispatchCreateConnection : Locking := DiscoveryManager.getNodeInfo

/-- A zombie connection is closed and created, a completed one told. -/
def jobDispatchConnectConnection (listener : Locking) : Locking :=
  DiscoveryManager.getNodeInfo * (1 + JobManager.addJob * JobManager.addJob + listener)

def jobDispatchCloseConnection (listener : Locking) : Locking :=
  1 + DiscoveryManager.invalidate listener * (1 + listener)

def dispatchJob (listener : Locking) : Locking :=
  1 + jobDispatchCreateConnection + jobDispatchConnectConnection listener +
    jobDispatchCloseConnection listener

end ConnectionManager

namespace StatisticsManager

def register : Locking := critical statistics 1

def deregister : Locking := critical statistics 1

def printStatistics : Locking := critical statistics 1

end StatisticsManager

/-- What a listener may do in a call of the job thread. -/
def listener : Locking :=
  (DiscoveryManager.addNode + ConnectionManager.getConnection +
    ConnectionManager.closeConnection)∗

inductive Role
  | jobManager
  | exchangeManager
  | statisticsManager
  /-- the workers and the threads of the application -/
  | application
  deriving DecidableEq, Repr

/-- The calls of a thread: turns of its loop, or calls of the managers. -/
def Role.calls : Role → Locking
  | .jobManager =>
    JobManager.runLoop
      (DiscoveryManager.dispatchJob listener + ConnectionManager.dispatchJob listener)
  | .exchangeManager =>
    ExchangeManager.runLoop
      (DiscoveryManager.dispatchExchangeData + ConnectionManager.dispatchExchangeData)
  | .statisticsManager => StatisticsManager.printStatistics
  | .application =>
    DiscoveryManager.new + DiscoveryManager.delete + DiscoveryManager.addNode +
      ConnectionManager.new + ConnectionManager.delete + ConnectionManager.getConnection +
      ConnectionManager.closeConnection + StatisticsManager.register +
      StatisticsManager.deregister + StatisticsManager.printStatistics

/-! ## Every function takes its locks in the order -/

variable {r : ℕ} {P : Locking}

theorem respects_section {l : Lock} (hr : r ≤ rank l) : Respects rank r (critical l 1) :=
  respects_one.critical hr

theorem respects_addJob (hr : r ≤ 3) : Respects rank r JobManager.addJob := respects_section hr

theorem respects_jobDispatcher (hr : r ≤ 1) :
    Respects rank r JobManager.generateJobTypeId ∧ Respects rank r JobManager.addDispatcher ∧
      Respects rank r JobManager.removeDispatcher :=
  ⟨respects_one.add (respects_section hr), respects_section hr, respects_section hr⟩

theorem respects_exchangeDispatcher (hr : r ≤ 1) :
    Respects rank r ExchangeManager.generatePaketTypeId ∧
      Respects rank r ExchangeManager.addDispatcher ∧
      Respects rank r ExchangeManager.removeDispatcher :=
  ⟨respects_one.add (respects_section hr), respects_section hr, respects_section hr⟩

theorem respects_listener (hr : r ≤ 2) : Respects rank r listener :=
  Respects.kstar (((respects_one.add (respects_section hr)).add
    (respects_addJob (by omega)).kstar).add (respects_addJob (by omega)))

/-- The managers' jobs are dispatched under `m_dispatcherLock`. -/
theorem respects_dispatchJob (hP : Respects rank r P) (hr : r ≤ 2) :
    Respects rank r (DiscoveryManager.dispatchJob P) ∧
      Respects rank r (ConnectionManager.dispatchJob P) := by
  have hdiscovery : Respects rank r (critical discovery 1) := respects_section hr
  have hjob : Respects rank r JobManager.addJob := respects_addJob (by omega)
  have hinvalidate : Respects rank r (DiscoveryManager.invalidate P) :=
    (hdiscovery.mul (respects_one.add hjob)).mul (respects_one.add hP)
  constructor
  · exact (hdiscovery.add (hdiscovery.mul (respects_one.add hP))).add respects_one
  · refine ((respects_one.add hdiscovery).add ?_).add ?_
    · exact hdiscovery.mul ((respects_one.add (hjob.mul hjob)).add hP)
    · exact respects_one.add (hinvalidate.mul (respects_one.add hP))

theorem respects_jobRunLoop (hP : Respects rank 2 P) : Respects rank 0 (JobManager.runLoop P) := by
  have hdispatch : ∀ r ≤ 1, Respects rank r (critical jobDispatcher P∗) :=
    fun r hr => hP.kstar.critical hr
  have hwait : Respects rank 0 (critical job 1) := respects_section (Nat.zero_le _)
  refine (Respects.mul ?_ (hwait.mul (respects_one.add hwait))).add (hdispatch 0 (Nat.zero_le 1))
  exact (respects_one.add (hdispatch 1 (Nat.le_refl 1))).critical (Nat.zero_le _)

theorem respects_exchangeRunLoop (hP : Respects rank 2 P) :
    Respects rank 0 (ExchangeManager.runLoop P) :=
  respects_one.add (hP.kstar.critical (Nat.zero_le 1))

theorem respects_calls (role : Role) : Respects rank 0 role.calls := by
  cases role with
  | jobManager =>
    obtain ⟨hdiscovery, hconnection⟩ :=
      respects_dispatchJob (respects_listener (Nat.le_refl 2)) (Nat.le_refl 2)
    exact respects_jobRunLoop (hdiscovery.add hconnection)
  | exchangeManager =>
    have hjob : Respects rank 2 JobManager.addJob := respects_addJob (by decide)
    exact respects_exchangeRunLoop ((respects_one.add hjob).add (respects_one.add hjob))
  | statisticsManager => exact respects_section (Nat.zero_le _)
  | application =>
    obtain ⟨hgenJob, haddJob, hremoveJob⟩ := respects_jobDispatcher (r := 0) (Nat.zero_le 1)
    obtain ⟨hgen, hadd, hremove⟩ := respects_exchangeDispatcher (r := 0) (Nat.zero_le 1)
    have hjob : Respects rank 0 JobManager.addJob := respects_addJob (Nat.zero_le 3)
    have hidle : Respects rank 0 JobManager.setIdleJob := respects_section (Nat.le_refl 0)
    have hstatistics : Respects rank 0 (critical statistics 1) := respects_section (Nat.zero_le _)
    have hnode : Respects rank 0 DiscoveryManager.addNode :=
      respects_one.add (respects_section (Nat.zero_le _))
    have hdiscoveryNew : Respects rank 0 DiscoveryManager.new :=
      (((((((((hgen.mul hgen).mul hgenJob).mul hgenJob).mul hgenJob).mul hadd).mul hadd).mul
        haddJob).mul haddJob).mul haddJob).mul hidle
    have hdiscoveryDelete : Respects rank 0 DiscoveryManager.delete :=
      ((((hidle.mul hremove).mul hremove).mul hremoveJob).mul hremoveJob).mul hremoveJob
    have hconnectionNew : Respects rank 0 ConnectionManager.new :=
      ((((((hgen.mul hgenJob).mul hgenJob).mul hgenJob).mul hadd).mul haddJob).mul haddJob).mul
        haddJob
    have hconnectionDelete : Respects rank 0 ConnectionManager.delete :=
      (((hjob.kstar.mul hremove).mul hremoveJob).mul hremoveJob).mul hremoveJob
    exact ((((((((hdiscoveryNew.add hdiscoveryDelete).add hnode).add hconnectionNew).add
      hconnectionDelete).add hjob.kstar).add hjob).add hstatistics).add hstatistics).add hstatistics

/-! ## The threads -/

variable {Tid : Type*} [DecidableEq Tid] [Fintype Tid] {role : Tid → Role}
  {s : LockOrder.State Tid Lock}

/-- **The managers do not deadlock**: in every interleaving of any number of
threads, a state in which some thread is in a call has a thread whose next lock
operation goes through, and all calls under way can be finished. -/
theorem no_deadlock {as : List (Action Tid Lock)}
    (has : Lts.Along step (Calls fun t => (role t).calls) init as)
    (h : Lts.exec step init as = some s) :
    ((∃ t, (s.threads t).call ≠ []) → ∃ t s', step s (.next t) = some s') ∧
      ∃ ts s', Lts.exec nextStep s ts = some s' ∧ ∀ t, (s'.threads t).call = [] := by
  have hinv : Inv rank s := inv_of_exec (fun t => respects_calls (role t)) has h
  refine ⟨?_, hinv.exists_finish⟩
  rintro ⟨t, hbusy⟩
  exact hinv.exists_step hbusy

/-- A thread of the application is in `AddNode` while the job thread comes to
a discovery. -/
def exampleRun : List (Action Bool Lock) :=
  [.call false [.acquire jobDispatcher, .acquire discovery, .release discovery,
      .release jobDispatcher],
    .next false, .call true [.acquire discovery, .release discovery], .next true]

def exampleRole : Bool → Role
  | false => .jobManager
  | true => .application

theorem exampleRun_calls :
    Lts.Along step (Calls fun t => (exampleRole t).calls) init exampleRun := by
  have hsection : [.acquire discovery, .release discovery] ∈ critical discovery 1 :=
    mem_critical (Set.mem_singleton ([] : List (LockOp Lock)))
  have hdispatch : [.acquire discovery, .release discovery] ∈
      DiscoveryManager.dispatchJob listener + ConnectionManager.dispatchJob listener :=
    Or.inl (Or.inl (Or.inl hsection))
  have hjob : [.acquire jobDispatcher, .acquire discovery, .release discovery,
      .release jobDispatcher] ∈ Role.jobManager.calls := by
    apply Or.inr
    apply mem_critical (p := [.acquire discovery, .release discovery])
    refine Language.mem_kstar.mpr ⟨[_], (List.flatten_singleton ..).symm, ?_⟩
    intro a ha
    obtain rfl := List.mem_singleton.mp ha
    exact hdispatch
  have hnode : [.acquire discovery, .release discovery] ∈ Role.application.calls := by
    iterate 7 apply Or.inl
    exact Or.inr (Or.inr hsection)
  exact ⟨hjob, trivial, hnode, trivial, trivial⟩

theorem no_deadlock_example :
    ∃ s, Lts.exec step init exampleRun = some s ∧ nextStep s false = none ∧
      ∃ ts s', Lts.exec nextStep s ts = some s' ∧ ∀ t, (s'.threads t).call = [] := by
  obtain ⟨s, hs⟩ : ∃ s, Lts.exec step init exampleRun = some s := ⟨_, rfl⟩
  refine ⟨s, hs, ?_, (no_deadlock exampleRun_calls hs).2⟩
  obtain rfl := Option.some.inj hs
  rfl

end Lock

end Ibdxnet.Con
