import Ibdxnet.Connection.DiscoveryBookkeeping
import Ibdxnet.Lib.Lts

/-!
# The discovery between any number of nodes

Every process asks the addresses it still has to discover, and answers each
request with its own node id.  Requests and responses may be lost, duplicated
and reordered; processes add nodes and invalidate discovered ones at any time.

    every discovered entry is stored under the id of the process at its
      address                                        (discovered_sound)
    with unique node ids no entry is ever lost       (entries_kept)
    once everything is answered, every node with a process is discovered
                                                     (discovery_completes)
-/

namespace Ibdxnet.Con

/-- The processes: at which addresses one runs, and what it is started with. -/
structure Fabric where
  alive : UInt32 → Bool
  ownNodeId : UInt32 → NodeId
  hostname : UInt32 → String
  nodeConf : UInt32 → List Entry

/-- A packet of the discovery: a request, or the response to one. -/
structure DiscoveryPaket where
  sourceIPV4 : UInt32
  destIPV4 : UInt32
  resp : Bool
  sourceNodeId : NodeId
  deriving DecidableEq, Repr

inductive DiscoveryJob
  | discover
  | discovered (targetIPV4 : UInt32) (nodeIdDiscovered : NodeId)
  deriving DecidableEq, Repr

structure DiscoveryNetwork where
  node : UInt32 → Discovery
  /-- the jobs of the discovery in the queue of each process, oldest first -/
  jobs : UInt32 → List DiscoveryJob
  /-- packets on their way -/
  pakets : List DiscoveryPaket

namespace DiscoveryNetwork

inductive Action
  /-- the job thread of a process has nothing to do -/
  | idle (ipv4 : UInt32)
  | runJob (ipv4 : UInt32)
  /-- the packet at `i` is received -/
  | receive (i : Nat)
  | lose (i : Nat)
  | duplicate (i : Nat)
  | addNode (ipv4 : UInt32) (entry : Entry)
  | invalidate (ipv4 : UInt32) (nodeId : NodeId)
  deriving DecidableEq, Repr

variable (f : Fabric)

def init : DiscoveryNetwork where
  node ipv4 := .new (f.hostname ipv4) (f.nodeConf ipv4)
  jobs _ := []
  pakets := []

/-- `ExchangeManager::SendData` of a packet of the discovery: the header says who sends it. -/
def sendData (w : DiscoveryNetwork) (ipv4 destIPV4 : UInt32) (resp : Bool) : DiscoveryNetwork :=
  { w with pakets := w.pakets ++
      [{ sourceIPV4 := ipv4, destIPV4, resp, sourceNodeId := f.ownNodeId ipv4 }] }

def addJob (w : DiscoveryNetwork) (ipv4 : UInt32) (job : DiscoveryJob) : DiscoveryNetwork :=
  { w with jobs := Function.update w.jobs ipv4 (w.jobs ipv4 ++ [job]) }

/-- `_DispatchExchangeData` of the process the packet is for. -/
def dispatchExchangeData (w : DiscoveryNetwork) (paket : DiscoveryPaket) : DiscoveryNetwork :=
  if paket.resp then
    w.addJob paket.destIPV4 (.discovered paket.sourceIPV4 paket.sourceNodeId)
  else
    w.sendData f paket.destIPV4 paket.sourceIPV4 true

/-- `__ExecuteDiscovery`: a request for each node that is to be discovered. -/
def executeDiscovery (w : DiscoveryNetwork) (ipv4 : UInt32) : Option DiscoveryNetwork :=
  (w.node ipv4).manager.executeDiscovery.map fun ipv4s =>
    ipv4s.foldl (fun w dest => w.sendData f ipv4 dest false) w

/-- A call of the discovery of one process. -/
def actNode (w : DiscoveryNetwork) (ipv4 : UInt32) (a : Discovery.Action) :
    Option DiscoveryNetwork :=
  (Discovery.step (f.hostname ipv4) (w.node ipv4) a).map fun d =>
    { w with node := Function.update w.node ipv4 d }

/-- `_DispatchJob` -/
def dispatchJob (w : DiscoveryNetwork) (ipv4 : UInt32) : DiscoveryJob → Option DiscoveryNetwork
  | .discover => w.executeDiscovery f ipv4
  | .discovered targetIPV4 nodeIdDiscovered =>
    w.actNode f ipv4 (.discovered targetIPV4 nodeIdDiscovered)

/-- One step.  Only where a process runs something happens. -/
def step (w : DiscoveryNetwork) : Action → Option DiscoveryNetwork
  | .idle ipv4 =>
    if f.alive ipv4 ∧ w.jobs ipv4 = [] then w.executeDiscovery f ipv4 else none
  | .runJob ipv4 =>
    match w.jobs ipv4 with
    | [] => none
    | job :: jobs =>
      if f.alive ipv4 then
        ({ w with jobs := Function.update w.jobs ipv4 jobs } : DiscoveryNetwork).dispatchJob f ipv4
          job
      else none
  | .receive i =>
    match w.pakets[i]? with
    | none => none
    | some paket =>
      if f.alive paket.destIPV4 then
        some (({ w with pakets := w.pakets.eraseIdx i } : DiscoveryNetwork).dispatchExchangeData f
          paket)
      else none
  | .lose i => if i < w.pakets.length then some { w with pakets := w.pakets.eraseIdx i } else none
  | .duplicate i =>
    match w.pakets[i]? with
    | none => none
    | some paket => some { w with pakets := paket :: w.pakets }
  | .addNode ipv4 entry =>
    if f.alive ipv4 then w.actNode f ipv4 (.addNode entry) else none
  | .invalidate ipv4 nodeId =>
    if f.alive ipv4 then
      (w.actNode f ipv4 (.invalidate nodeId)).map fun w => w.addJob ipv4 .discover
    else none

/-! ### Three configured nodes, two of them running -/

def exampleConf : List Entry :=
  [{ hostname := "node1", address := 1 }, { hostname := "node2", address := 2 },
    { hostname := "node3", address := 3 }]

def exampleFabric : Fabric where
  alive ipv4 := ipv4 = 1 ∨ ipv4 = 2
  ownNodeId ipv4 := if ipv4 = 1 then 0x11 else 0x22
  hostname ipv4 := if ipv4 = 1 then "node1" else "node2"
  nodeConf _ := exampleConf

/-- The request to node 2 arrives twice, so does its answer; node 4 is added meanwhile. -/
def exampleRun : List Action :=
  [.duplicate 0, .receive 0, .addNode 1 { hostname := "node4", address := 4 }, .receive 2,
    .runJob 1, .receive 0, .receive 1, .runJob 1]

/-! ## What a step does -/

section
variable {f : Fabric} {w w' : DiscoveryNetwork} {ipv4 : UInt32} {d d' : Discovery}

/-- The request of a process to an address. -/
def request (f : Fabric) (ipv4 dest : UInt32) : DiscoveryPaket where
  sourceIPV4 := ipv4
  destIPV4 := dest
  resp := false
  sourceNodeId := f.ownNodeId ipv4

theorem foldl_sendData (ipv4s : List UInt32) (w : DiscoveryNetwork) (ipv4 : UInt32) :
    ipv4s.foldl (fun w dest => w.sendData f ipv4 dest false) w =
      { w with pakets := w.pakets ++ ipv4s.map (request f ipv4) } := by
  induction ipv4s generalizing w with
  | nil => simp
  | cons dest ipv4s ih =>
    rw [List.foldl_cons, ih]
    simp [sendData, request]

theorem mem_of_mapM_address {l : List (Option Entry)} {ipv4s : List UInt32}
    (h : l.mapM (fun entry => entry.map Entry.address) = some ipv4s) {entry : Entry}
    (hmem : some entry ∈ l) : entry.address ∈ ipv4s := by
  induction l generalizing ipv4s with
  | nil => cases hmem
  | cons first l ih =>
    rw [List.mapM_cons] at h
    obtain ⟨address, haddress, h⟩ := Option.bind_eq_some_iff.mp h
    obtain ⟨rest, hrest, h⟩ := Option.bind_eq_some_iff.mp h
    obtain rfl := Option.some.inj h
    rcases List.mem_cons.mp hmem with rfl | hmem
    · obtain rfl := Option.some.inj haddress
      exact List.mem_cons_self
    · exact List.mem_cons_of_mem _ (ih hrest hmem)

/-- The requests of a discovery go to the addresses in the list. -/
theorem executeDiscovery_eq_some (h : w.executeDiscovery f ipv4 = some w') :
    ∃ ipv4s : List UInt32,
      w' = { w with pakets := w.pakets ++ ipv4s.map (request f ipv4) } ∧
      ∀ entry, some entry ∈ (w.node ipv4).manager.infoToGet → entry.address ∈ ipv4s := by
  obtain ⟨ipv4s, hipv4s, rfl⟩ := Option.map_eq_some_iff.mp h
  exact ⟨ipv4s, foldl_sendData ipv4s w ipv4, fun entry => mem_of_mapM_address hipv4s⟩

theorem actNode_eq_some {a : Discovery.Action} (h : w.actNode f ipv4 a = some w') :
    ∃ d, Discovery.step (f.hostname ipv4) (w.node ipv4) a = some d ∧
      w' = { w with node := Function.update w.node ipv4 d } := by
  obtain ⟨d, hd, rfl⟩ := Option.map_eq_some_iff.mp h
  exact ⟨d, hd, rfl⟩

theorem address_of_takeEntry {l rest : List (Option Entry)} {entry : Entry}
    (h : DiscoveryManager.takeEntry ipv4 l = some (some (entry, rest))) :
    entry.address = ipv4 := by
  induction l generalizing rest with
  | nil => cases h
  | cons first l ih =>
    cases first with
    | none => cases h
    | some first =>
      by_cases haddress : first.address = ipv4
      · simp only [DiscoveryManager.takeEntry, if_pos haddress, Option.some.injEq,
          Prod.mk.injEq] at h
        exact h.1 ▸ haddress
      · simp only [DiscoveryManager.takeEntry, if_neg haddress, Option.map_eq_some_iff,
          Prod.exists, Prod.mk.injEq] at h
        obtain ⟨found, htake, e, es, rfl, rfl, -⟩ := h
        exact ih htake

theorem address_ne_of_takeEntry {l : List (Option Entry)}
    (h : DiscoveryManager.takeEntry ipv4 l = some none) {entry : Entry} (hmem : some entry ∈ l) :
    entry.address ≠ ipv4 := by
  induction l with
  | nil => cases hmem
  | cons first l ih =>
    cases first with
    | none => cases h
    | some first =>
      by_cases haddress : first.address = ipv4
      · simp [DiscoveryManager.takeEntry, haddress] at h
      · simp only [DiscoveryManager.takeEntry, if_neg haddress, Option.map_eq_some_iff] at h
        obtain ⟨found, htake, hfound⟩ := h
        rcases List.mem_cons.mp hmem with hfirst | hmem
        · exact Option.some.inj hfirst ▸ haddress
        · exact ih (by rw [htake, Option.map_eq_none_iff.mp hfound]) hmem

/-- What a discovered job that is executed does. -/
theorem step_discovered {hostname : String} {targetIPV4 : UInt32} {nodeId : NodeId}
    (h : Discovery.step hostname d (.discovered targetIPV4 nodeId) = some d') :
    d'.accepted = d.accepted ∧
      (d'.manager = d.manager ∧
          (∀ entry, some entry ∈ d.manager.infoToGet → entry.address ≠ targetIPV4) ∨
        ∃ entry rest, entry.address = targetIPV4 ∧
          d.manager.infoToGet.Perm (some entry :: rest) ∧ d'.manager =
            { infoToGet := rest
              nodeInfo := Function.update d.manager.nodeInfo nodeId (some entry) }) := by
  simp only [Discovery.step] at h
  split at h
  · obtain ⟨manager, hmanager, rfl⟩ := Option.map_eq_some_iff.mp h
    refine ⟨rfl, ?_⟩
    unfold DiscoveryManager.discovered at hmanager
    cases htake : DiscoveryManager.takeEntry targetIPV4 d.manager.infoToGet with
    | none => rw [htake] at hmanager; cases hmanager
    | some found =>
      rw [htake] at hmanager
      cases found with
      | none =>
        exact Or.inl ⟨(Option.some.inj hmanager).symm,
          fun entry hmem => address_ne_of_takeEntry htake hmem⟩
      | some found =>
        obtain ⟨entry, rest⟩ := found
        exact Or.inr ⟨entry, rest, address_of_takeEntry htake,
          DiscoveryManager.perm_of_takeEntry htake, (Option.some.inj hmanager).symm⟩
  · cases h

/-- The jobs of one process are replaced. -/
def setJobs (w : DiscoveryNetwork) (ipv4 : UInt32) (jobs : List DiscoveryJob) :
    DiscoveryNetwork :=
  { w with jobs := Function.update w.jobs ipv4 jobs }

/-- The discovery of one process is replaced. -/
def setNode (w : DiscoveryNetwork) (ipv4 : UInt32) (d : Discovery) : DiscoveryNetwork :=
  { w with node := Function.update w.node ipv4 d }

/-- The packets on their way are replaced. -/
def setPakets (w : DiscoveryNetwork) (pakets : List DiscoveryPaket) : DiscoveryNetwork :=
  { w with pakets }

/-- What a step can be. -/
inductive Moves (f : Fabric) (w : DiscoveryNetwork) : Action → DiscoveryNetwork → Prop
  | idle {ipv4 : UInt32} {ipv4s : List UInt32} (halive : f.alive ipv4 = true)
      (hipv4s : ∀ entry, some entry ∈ (w.node ipv4).manager.infoToGet → entry.address ∈ ipv4s) :
      Moves f w (.idle ipv4) (w.setPakets (w.pakets ++ ipv4s.map (request f ipv4)))
  | discover {ipv4 : UInt32} {jobs : List DiscoveryJob} {ipv4s : List UInt32}
      (halive : f.alive ipv4 = true) (hjobs : w.jobs ipv4 = .discover :: jobs)
      (hipv4s : ∀ entry, some entry ∈ (w.node ipv4).manager.infoToGet → entry.address ∈ ipv4s) :
      Moves f w (.runJob ipv4)
        ((w.setJobs ipv4 jobs).setPakets (w.pakets ++ ipv4s.map (request f ipv4)))
  | discovered {ipv4 targetIPV4 : UInt32} {nodeId : NodeId} {jobs : List DiscoveryJob}
      {d : Discovery} (hjobs : w.jobs ipv4 = .discovered targetIPV4 nodeId :: jobs)
      (hd : Discovery.step (f.hostname ipv4) (w.node ipv4) (.discovered targetIPV4 nodeId) =
        some d) : Moves f w (.runJob ipv4) ((w.setJobs ipv4 jobs).setNode ipv4 d)
  | answered {i : Nat} {paket : DiscoveryPaket} (hpaket : w.pakets[i]? = some paket)
      (halive : f.alive paket.destIPV4 = true) (hresp : paket.resp = false) :
      Moves f w (.receive i) (w.setPakets (w.pakets.eraseIdx i ++
        [⟨paket.destIPV4, paket.sourceIPV4, true, f.ownNodeId paket.destIPV4⟩]))
  | noted {i : Nat} {paket : DiscoveryPaket} (hpaket : w.pakets[i]? = some paket)
      (hresp : paket.resp = true) :
      Moves f w (.receive i) ((w.setPakets (w.pakets.eraseIdx i)).addJob paket.destIPV4
        (.discovered paket.sourceIPV4 paket.sourceNodeId))
  | lose {i : Nat} : Moves f w (.lose i) (w.setPakets (w.pakets.eraseIdx i))
  | duplicate {i : Nat} {paket : DiscoveryPaket} (hpaket : w.pakets[i]? = some paket) :
      Moves f w (.duplicate i) (w.setPakets (paket :: w.pakets))
  | addNode {ipv4 : UInt32} {entry : Entry} {d : Discovery}
      (hd : Discovery.step (f.hostname ipv4) (w.node ipv4) (.addNode entry) = some d) :
      Moves f w (.addNode ipv4 entry) (w.setNode ipv4 d)
  | invalidate {ipv4 : UInt32} {nodeId : NodeId} {d : Discovery}
      (hd : Discovery.step (f.hostname ipv4) (w.node ipv4) (.invalidate nodeId) = some d) :
      Moves f w (.invalidate ipv4 nodeId) ((w.setNode ipv4 d).addJob ipv4 .discover)

theorem step_moves {a : Action} (hs : step f w a = some w') : Moves f w a w' := by
  cases a with
  | idle ipv4 =>
    simp only [step] at hs
    split at hs
    · next hidle =>
      obtain ⟨ipv4s, rfl, hipv4s⟩ := executeDiscovery_eq_some hs
      exact .idle hidle.1 hipv4s
    · cases hs
  | runJob ipv4 =>
    simp only [step] at hs
    split at hs
    · cases hs
    · next job jobs hjobs =>
      split at hs
      · next halive =>
        cases job with
        | discover =>
          obtain ⟨ipv4s, rfl, hipv4s⟩ := executeDiscovery_eq_some hs
          exact .discover halive hjobs hipv4s
        | discovered targetIPV4 nodeId =>
          obtain ⟨d, hd, rfl⟩ := actNode_eq_some hs
          exact .discovered hjobs hd
      · cases hs
  | receive i =>
    simp only [step] at hs
    split at hs
    · cases hs
    · next paket hpaket =>
      split at hs
      · next halive =>
        obtain rfl := Option.some.inj hs
        cases hresp : paket.resp with
        | true =>
          rw [dispatchExchangeData, if_pos hresp]
          exact .noted hpaket hresp
        | false =>
          rw [dispatchExchangeData, if_neg (by simp [hresp])]
          exact .answered hpaket halive hresp
      · cases hs
  | lose i =>
    simp only [step] at hs
    split at hs
    · obtain rfl := Option.some.inj hs
      exact .lose
    · cases hs
  | duplicate i =>
    simp only [step] at hs
    split at hs
    · cases hs
    · next paket hpaket =>
      obtain rfl := Option.some.inj hs
      exact .duplicate hpaket
  | addNode ipv4 entry =>
    simp only [step] at hs
    split at hs
    · obtain ⟨d, hd, rfl⟩ := actNode_eq_some hs
      exact .addNode hd
    · cases hs
  | invalidate ipv4 nodeId =>
    simp only [step] at hs
    split at hs
    · obtain ⟨w₁, hw₁, rfl⟩ := Option.map_eq_some_iff.mp hs
      obtain ⟨d, hd, rfl⟩ := actNode_eq_some hw₁
      exact .invalidate hd
    · cases hs

section
variable (w : DiscoveryNetwork) (ipv4 : UInt32) (d : Discovery) (jobs : List DiscoveryJob)
  (pakets : List DiscoveryPaket) (job : DiscoveryJob)

@[simp] theorem setJobs_node : (w.setJobs ipv4 jobs).node = w.node := rfl
@[simp] theorem setJobs_pakets : (w.setJobs ipv4 jobs).pakets = w.pakets := rfl
@[simp] theorem setJobs_jobs_self : (w.setJobs ipv4 jobs).jobs ipv4 = jobs :=
  Function.update_self ..
@[simp] theorem setNode_jobs : (w.setNode ipv4 d).jobs = w.jobs := rfl
@[simp] theorem setNode_pakets : (w.setNode ipv4 d).pakets = w.pakets := rfl
@[simp] theorem setNode_node_self : (w.setNode ipv4 d).node ipv4 = d := Function.update_self ..
@[simp] theorem setPakets_node : (w.setPakets pakets).node = w.node := rfl
@[simp] theorem setPakets_jobs : (w.setPakets pakets).jobs = w.jobs := rfl
@[simp] theorem setPakets_pakets : (w.setPakets pakets).pakets = pakets := rfl
@[simp] theorem addJob_node : (w.addJob ipv4 job).node = w.node := rfl
@[simp] theorem addJob_pakets : (w.addJob ipv4 job).pakets = w.pakets := rfl
@[simp] theorem addJob_jobs_self : (w.addJob ipv4 job).jobs ipv4 = w.jobs ipv4 ++ [job] :=
  Function.update_self ..

variable {ipv4} {k : UInt32} (hk : k ≠ ipv4)

include hk

theorem setJobs_jobs_of_ne : (w.setJobs ipv4 jobs).jobs k = w.jobs k := Function.update_of_ne hk ..
theorem setNode_node_of_ne : (w.setNode ipv4 d).node k = w.node k := Function.update_of_ne hk ..
theorem addJob_jobs_of_ne : (w.addJob ipv4 job).jobs k = w.jobs k := Function.update_of_ne hk ..

end

/-! ## Who answers -/

/-- The process at an address answers with this id. -/
def IsAt (f : Fabric) (ipv4 : UInt32) (nodeId : NodeId) : Prop :=
  f.alive ipv4 = true ∧ f.ownNodeId ipv4 = nodeId

/-- Packets, jobs and discovered entries name the id of the process at the address. -/
structure Sound (f : Fabric) (w : DiscoveryNetwork) : Prop where
  pakets : ∀ paket ∈ w.pakets, IsAt f paket.sourceIPV4 paket.sourceNodeId
  jobs : ∀ ipv4 {targetIPV4 nodeId}, .discovered targetIPV4 nodeId ∈ w.jobs ipv4 →
    IsAt f targetIPV4 nodeId
  nodeInfo : ∀ {ipv4 nodeId entry}, (w.node ipv4).manager.nodeInfo nodeId = some entry →
    IsAt f entry.address nodeId

theorem sound_init : Sound f (init f) where
  pakets _ hpaket := by cases hpaket
  jobs _ _ _ hjob := by cases hjob
  nodeInfo hentry := by simp [init, Discovery.new, DiscoveryManager.new] at hentry

/-- Packets are replaced by ones that name the id of their sender. -/
theorem Sound.setPakets (h : Sound f w) {pakets : List DiscoveryPaket}
    (hpakets : ∀ paket ∈ pakets, paket ∈ w.pakets ∨ IsAt f paket.sourceIPV4 paket.sourceNodeId) :
    Sound f (w.setPakets pakets) where
  pakets paket hpaket := (hpakets paket hpaket).elim (h.pakets paket) id
  jobs := h.jobs
  nodeInfo := h.nodeInfo

/-- Jobs are executed. -/
theorem Sound.setJobs (h : Sound f w) {jobs : List DiscoveryJob} (hjobs : jobs ⊆ w.jobs ipv4) :
    Sound f (w.setJobs ipv4 jobs) where
  pakets := h.pakets
  jobs k {_ _} hjob := by
    by_cases hk : k = ipv4
    · subst hk
      rw [setJobs_jobs_self] at hjob
      exact h.jobs k (hjobs hjob)
    · rw [setJobs_jobs_of_ne _ _ hk] at hjob
      exact h.jobs k hjob
  nodeInfo := h.nodeInfo

theorem Sound.addJob (h : Sound f w) {job : DiscoveryJob}
    (hjob : ∀ targetIPV4 nodeId, job = .discovered targetIPV4 nodeId → IsAt f targetIPV4 nodeId) :
    Sound f (w.addJob ipv4 job) where
  pakets := h.pakets
  jobs k {targetIPV4 nodeId} hmem := by
    by_cases hk : k = ipv4
    · subst hk
      rw [addJob_jobs_self, List.mem_append, List.mem_singleton] at hmem
      exact hmem.elim (h.jobs k) fun heq => hjob targetIPV4 nodeId heq.symm
    · rw [addJob_jobs_of_ne _ _ hk] at hmem
      exact h.jobs k hmem
  nodeInfo := h.nodeInfo

theorem Sound.setNode (h : Sound f w)
    (hd : ∀ nodeId entry, d.manager.nodeInfo nodeId = some entry →
      (w.node ipv4).manager.nodeInfo nodeId = some entry ∨ IsAt f entry.address nodeId) :
    Sound f (w.setNode ipv4 d) where
  pakets := h.pakets
  jobs := h.jobs
  nodeInfo {k nodeId entry} hentry := by
    by_cases hk : k = ipv4
    · subst hk
      rw [setNode_node_self] at hentry
      exact (hd nodeId entry hentry).elim h.nodeInfo id
    · rw [setNode_node_of_ne _ _ hk] at hentry
      exact h.nodeInfo hentry

/-- Only a discovered job fills a slot. -/
theorem nodeInfo_of_step {hostname : String} {a : Discovery.Action}
    (hs : Discovery.step hostname d a = some d') {nodeId : NodeId} {entry : Entry}
    (hentry : d'.manager.nodeInfo nodeId = some entry) :
    d.manager.nodeInfo nodeId = some entry ∨ a = .discovered entry.address nodeId := by
  cases a with
  | addNode added =>
    obtain rfl := Option.some.inj hs
    unfold DiscoveryManager.addNode at hentry
    split at hentry
    · exact Or.inl hentry
    · exact Or.inl hentry
  | discovered targetIPV4 nodeIdDiscovered =>
    rcases step_discovered hs with ⟨-, ⟨hmanager, -⟩ | ⟨found, rest, haddress, -, hmanager⟩⟩
    · exact Or.inl (hmanager ▸ hentry)
    · rw [hmanager] at hentry
      by_cases hid : nodeId = nodeIdDiscovered
      · subst hid
        simp only [Function.update_self, Option.some.injEq] at hentry
        exact Or.inr (by rw [← hentry, haddress])
      · simp only [Function.update_of_ne hid] at hentry
        exact Or.inl hentry
  | invalidate nodeIdInvalid =>
    simp only [Discovery.step] at hs
    split at hs
    · obtain rfl := Option.some.inj hs
      by_cases hid : nodeId = nodeIdInvalid
      · subst hid
        simp [DiscoveryManager.invalidate] at hentry
      · simp only [DiscoveryManager.invalidate, Function.update_of_ne hid] at hentry
        exact Or.inl hentry
    · cases hs

theorem isAt_request {dest : UInt32} (halive : f.alive ipv4 = true) :
    IsAt f (request f ipv4 dest).sourceIPV4 (request f ipv4 dest).sourceNodeId := ⟨halive, rfl⟩

theorem mem_requests {pakets : List DiscoveryPaket} {ipv4s : List UInt32} {paket : DiscoveryPaket}
    (halive : f.alive ipv4 = true) (hpaket : paket ∈ pakets ++ ipv4s.map (request f ipv4)) :
    paket ∈ pakets ∨ IsAt f paket.sourceIPV4 paket.sourceNodeId := by
  rcases List.mem_append.mp hpaket with hpaket | hpaket
  · exact Or.inl hpaket
  · obtain ⟨dest, -, rfl⟩ := List.mem_map.mp hpaket
    exact Or.inr (isAt_request halive)

theorem Sound.step {a : Action} (h : Sound f w) (hs : step f w a = some w') : Sound f w' := by
  cases step_moves hs with
  | idle halive => exact h.setPakets fun _ => mem_requests halive
  | discover halive hjobs =>
    have hqueue := h.setJobs (hjobs ▸ List.subset_cons_self ..)
    exact hqueue.setPakets fun _ => mem_requests halive
  | @discovered ipv4 targetIPV4 nodeId jobs d hjobs hd =>
    have hat : IsAt f targetIPV4 nodeId := h.jobs ipv4 (hjobs ▸ List.mem_cons_self)
    have hqueue := h.setJobs (hjobs ▸ List.subset_cons_self ..)
    refine hqueue.setNode fun n entry hentry => ?_
    rcases nodeInfo_of_step hd hentry with hold | hjob
    · exact Or.inl hold
    · obtain ⟨rfl, rfl⟩ := Discovery.Action.discovered.inj hjob
      exact Or.inr hat
  | answered hpaket halive =>
    refine h.setPakets fun paket hmem => ?_
    rcases List.mem_append.mp hmem with hmem | hmem
    · exact Or.inl (List.mem_of_mem_eraseIdx hmem)
    · obtain rfl := List.mem_singleton.mp hmem
      exact Or.inr ⟨halive, rfl⟩
  | @noted i _ hpaket =>
    have herase : Sound f (w.setPakets (w.pakets.eraseIdx i)) :=
      h.setPakets fun paket hmem => Or.inl (List.mem_of_mem_eraseIdx hmem)
    refine herase.addJob fun targetIPV4 nodeId hjob => ?_
    obtain ⟨rfl, rfl⟩ := DiscoveryJob.discovered.inj hjob
    exact h.pakets _ (List.mem_of_getElem? hpaket)
  | lose => exact h.setPakets fun paket hmem => Or.inl (List.mem_of_mem_eraseIdx hmem)
  | duplicate hpaket =>
    refine h.setPakets fun paket hmem => ?_
    rcases List.mem_cons.mp hmem with rfl | hmem
    · exact Or.inl (List.mem_of_getElem? hpaket)
    · exact Or.inl hmem
  | addNode hd =>
    refine h.setNode fun n entry hentry => ?_
    exact Or.inl ((nodeInfo_of_step hd hentry).resolve_right nofun)
  | invalidate hd =>
    refine (h.setNode fun n entry hentry => ?_).addJob nofun
    exact Or.inl ((nodeInfo_of_step hd hentry).resolve_right nofun)

theorem sound_of_exec {as : List Action} (h : Lts.exec (step f) (init f) as = some w) :
    Sound f w :=
  Lts.exec_invariant (fun _ _ _ hi hs => hi.step hs) sound_init h

/-- Whatever is lost, repeated or overtaken, an entry is stored under the id of
the process at its address. -/
theorem discovered_sound {as : List Action} (h : Lts.exec (step f) (init f) as = some w)
    {nodeId : NodeId} {entry : Entry}
    (hentry : (w.node ipv4).manager.nodeInfo nodeId = some entry) :
    f.alive entry.address = true ∧ f.ownNodeId entry.address = nodeId :=
  (sound_of_exec h).nodeInfo hentry

theorem discovered_sound_example :
    ∃ w, Lts.exec (step exampleFabric) (init exampleFabric) (.idle 1 :: exampleRun) = some w ∧
      exampleFabric.alive 2 = true ∧ exampleFabric.ownNodeId 2 = 0x22 := by
  obtain ⟨w, hrun, hentry⟩ : ∃ w, Lts.exec (step exampleFabric) (init exampleFabric)
      (.idle 1 :: exampleRun) = some w ∧
        (w.node 1).manager.nodeInfo 0x22 = some { hostname := "node2", address := 2 } :=
    ⟨_, rfl, rfl⟩
  exact ⟨w, hrun, discovered_sound hrun hentry⟩

/-! ## No entry is lost -/

/-- No two processes have one node id. -/
def UniqueIds (f : Fabric) : Prop :=
  ∀ a b, f.alive a = true → f.alive b = true → f.ownNodeId a = f.ownNodeId b → a = b

/-- An added node has a new address. -/
def NewAddress (w : DiscoveryNetwork) : Action → Prop
  | .addNode ipv4 entry => ∀ e ∈ (w.node ipv4).accepted, e.address ≠ entry.address
  | _ => True

instance (w : DiscoveryNetwork) (a : Action) : Decidable (NewAddress w a) :=
  match a with
  | .addNode ipv4 entry =>
    inferInstanceAs (Decidable (∀ e ∈ (w.node ipv4).accepted, e.address ≠ entry.address))
  | .idle _ | .runJob _ | .receive _ | .lose _ | .duplicate _ | .invalidate _ _ => isTrue trivial

/-- The entries of a process are in one place each and have addresses of their own. -/
structure Entries (d : Discovery) : Prop where
  kept : d.Kept
  addresses : (d.accepted.map Entry.address).Nodup

/-- The entries a process is started with have addresses of their own. -/
def DistinctConf (f : Fabric) : Prop :=
  ∀ ipv4, ((f.nodeConf ipv4).map Entry.address).Nodup

theorem entries_init (hconf : DistinctConf f) (ipv4 : UInt32) :
    Entries ((init f).node ipv4) where
  kept := Discovery.kept_new _
  addresses := (hconf ipv4).sublist (List.filter_sublist.map _)

theorem Entries.nodup (h : Entries d) : d.accepted.Nodup := h.addresses.of_map

theorem Entries.eq_of_address (h : Entries d) {e entry : Entry} (he : e ∈ d.accepted)
    (hentry : entry ∈ d.accepted) (haddress : e.address = entry.address) : e = entry :=
  List.inj_on_of_nodup_map h.addresses he hentry haddress

theorem slots_pos {nodeId : NodeId} {entry : Entry} (h : d.manager.nodeInfo nodeId = some entry) :
    0 < d.slots entry := by
  refine Finset.sum_pos' (fun _ _ => Nat.zero_le _) ⟨nodeId, Finset.mem_univ _, ?_⟩
  rw [if_pos h]
  exact Nat.zero_lt_one

theorem Entries.mem_of_listed (h : Entries d) {entry : Entry}
    (hmem : some entry ∈ d.manager.infoToGet) : entry ∈ d.accepted := by
  have hcount := h.kept.partitioned entry
  have hlisted := List.count_pos_iff.mpr hmem
  exact List.count_pos_iff.mp (by omega)

/-- An entry that is still to be discovered is in no slot, and neither is one
with its address. -/
theorem Entries.address_ne (h : Entries d) {nodeId : NodeId} {old entry : Entry}
    (hold : d.manager.nodeInfo nodeId = some old) (hmem : some entry ∈ d.manager.infoToGet) :
    old.address ≠ entry.address := by
  intro haddress
  have hslots := slots_pos hold
  have hpart := h.kept.partitioned old
  have haccepted : old ∈ d.accepted := List.count_pos_iff.mp (by omega)
  obtain rfl := h.eq_of_address haccepted (h.mem_of_listed hmem) haddress
  have hlisted := List.count_pos_iff.mpr hmem
  have hone := List.nodup_iff_count_le_one.mp h.nodup old
  omega

theorem Entries.step {hostname : String} {a : Discovery.Action} (h : Entries d)
    (hfree : d.SlotFree a) (hnew : ∀ entry, a = .addNode entry →
      ∀ e ∈ d.accepted, e.address ≠ entry.address)
    (hs : Discovery.step hostname d a = some d') : Entries d' := by
  refine ⟨h.kept.step hfree hs, ?_⟩
  cases a with
  | addNode entry =>
    obtain rfl := Option.some.inj hs
    dsimp only
    split
    · rw [List.map_append, List.map_singleton, ← List.concat_eq_append]
      refine h.addresses.concat fun hmem => ?_
      obtain ⟨e, he, haddress⟩ := List.mem_map.mp hmem
      exact hnew entry rfl e he haddress
    · exact h.addresses
  | discovered targetIPV4 nodeId =>
    rw [(step_discovered hs).1]
    exact h.addresses
  | invalidate nodeId =>
    simp only [Discovery.step] at hs
    split at hs
    · obtain rfl := Option.some.inj hs
      exact h.addresses
    · cases hs

/-- The slot of the id a process answers with is free, or holds its own entry. -/
theorem slotFree (hunique : UniqueIds f) (hsound : Sound f w) (h : Entries (w.node ipv4))
    {targetIPV4 : UInt32} {nodeId : NodeId} (hat : IsAt f targetIPV4 nodeId) :
    (w.node ipv4).SlotFree (.discovered targetIPV4 nodeId) := by
  rintro ⟨entry, hmem, haddress⟩
  cases hslot : (w.node ipv4).manager.nodeInfo nodeId with
  | none => rfl
  | some old =>
    have hold : IsAt f old.address nodeId := hsound.nodeInfo hslot
    have hsame : old.address = targetIPV4 :=
      hunique _ _ hold.1 hat.1 (hold.2.trans hat.2.symm)
    exact absurd (hsame.trans haddress.symm) (h.address_ne hslot hmem)

theorem Entries.setNode (h : ∀ k, Entries (w.node k)) (hd : Entries d) (k : UInt32) :
    Entries ((w.setNode ipv4 d).node k) := by
  by_cases hk : k = ipv4
  · subst hk
    rwa [setNode_node_self]
  · rw [setNode_node_of_ne _ _ hk]
    exact h k

theorem entries_step {a : Action} (hunique : UniqueIds f) (hsound : Sound f w)
    (h : ∀ k, Entries (w.node k)) (hnew : NewAddress w a) (hs : step f w a = some w')
    (k : UInt32) : Entries (w'.node k) := by
  cases step_moves hs with
  | idle | discover | answered | noted | lose | duplicate => exact h k
  | @discovered ipv4 targetIPV4 nodeId jobs d hjobs hd =>
    have hat : IsAt f targetIPV4 nodeId := hsound.jobs ipv4 (hjobs ▸ List.mem_cons_self)
    have hfree := slotFree hunique hsound (h ipv4) hat
    exact Entries.setNode (w := w.setJobs ipv4 jobs) h ((h ipv4).step hfree nofun hd) k
  | @addNode ipv4 entry d hd =>
    have hfree : (w.node ipv4).SlotFree (.addNode entry) := trivial
    refine Entries.setNode h ((h ipv4).step hfree (fun added hadded => ?_) hd) k
    obtain rfl := Discovery.Action.addNode.inj hadded
    exact hnew
  | @invalidate ipv4 nodeId d hd =>
    have hfree : (w.node ipv4).SlotFree (.invalidate nodeId) := trivial
    refine Entries.setNode h ((h ipv4).step hfree (fun added hadded => ?_) hd) k
    cases hadded

/-- What holds throughout a run of processes with ids and entries of their own. -/
structure Inv (f : Fabric) (w : DiscoveryNetwork) : Prop where
  sound : Sound f w
  entries : ∀ ipv4, Entries (w.node ipv4)

theorem inv_of_exec (hunique : UniqueIds f) (hconf : DistinctConf f) {as : List Action}
    (hnew : Lts.Along (step f) NewAddress (init f) as)
    (h : Lts.exec (step f) (init f) as = some w) : Inv f w := by
  refine Lts.exec_invariant_along (fun s a t hi ha hs => ?_) ⟨sound_init, entries_init hconf⟩ hnew h
  exact ⟨hi.sound.step hs, entries_step hunique hi.sound hi.entries ha hs⟩

/-- With unique node ids no answer overwrites an entry, in whatever order and
however often the answers arrive. -/
theorem entries_kept (hunique : UniqueIds f) (hconf : DistinctConf f) {as : List Action}
    (hnew : Lts.Along (step f) NewAddress (init f) as)
    (h : Lts.exec (step f) (init f) as = some w) (ipv4 : UInt32) :
    (w.node ipv4).Partitioned :=
  ((inv_of_exec hunique hconf hnew h).entries ipv4).kept.partitioned

theorem exampleFabric_uniqueIds : UniqueIds exampleFabric := by
  intro a b ha hb hid
  rcases of_decide_eq_true ha with rfl | rfl <;> rcases of_decide_eq_true hb with rfl | rfl
  · rfl
  · exact absurd hid (by decide)
  · exact absurd hid (by decide)
  · rfl

theorem exampleFabric_distinctConf : DistinctConf exampleFabric := fun _ =>
  show (exampleConf.map Entry.address).Nodup by decide

theorem entries_kept_example :
    ∃ w, Lts.exec (step exampleFabric) (init exampleFabric) (.idle 1 :: exampleRun) = some w ∧
      ∀ ipv4, (w.node ipv4).Partitioned := by
  have hnew : Lts.Along (step exampleFabric) NewAddress (init exampleFabric)
      (.idle 1 :: exampleRun) := by decide +kernel
  exact ⟨_, rfl, entries_kept exampleFabric_uniqueIds exampleFabric_distinctConf hnew rfl⟩

/-! ## Every node is discovered -/

/-- Nothing a process sends or is sent is lost. -/
def Keeps (ipv4 : UInt32) (w : DiscoveryNetwork) : Action → Prop
  | .lose i => ∀ paket ∈ w.pakets[i]?, paket.sourceIPV4 ≠ ipv4 ∧ paket.destIPV4 ≠ ipv4
  | _ => True

instance (ipv4 : UInt32) (w : DiscoveryNetwork) (a : Action) : Decidable (Keeps ipv4 w a) :=
  match a with
  | .lose i => inferInstanceAs (Decidable (∀ paket ∈ w.pakets[i]?,
      paket.sourceIPV4 ≠ ipv4 ∧ paket.destIPV4 ≠ ipv4))
  | .idle _ | .runJob _ | .receive _ | .duplicate _ | .addNode _ _ | .invalidate _ _ =>
    isTrue trivial

/-- The process is about to ask for the entry, or what it asked is under way. -/
def UnderWay (f : Fabric) (w : DiscoveryNetwork) (ipv4 : UInt32) (entry : Entry) : Prop :=
  .discover ∈ w.jobs ipv4 ∨ request f ipv4 entry.address ∈ w.pakets ∨
    (∃ paket ∈ w.pakets, paket.resp = true ∧ paket.sourceIPV4 = entry.address ∧
      paket.destIPV4 = ipv4) ∨
    ∃ nodeId, .discovered entry.address nodeId ∈ w.jobs ipv4

/-- The process has asked for every one of `entries` it has not discovered. -/
structure Asked (f : Fabric) (ipv4 : UInt32) (entries : List Entry) (w : DiscoveryNetwork) :
    Prop where
  accepted : entries ⊆ (w.node ipv4).accepted
  underWay : ∀ entry ∈ entries, f.alive entry.address = true →
    some entry ∈ (w.node ipv4).manager.infoToGet → UnderWay f w ipv4 entry

variable {entries : List Entry} {entry : Entry}

theorem eq_or_mem_eraseIdx {α : Type} {l : List α} {i : Nat} {x y : α} (hx : x ∈ l)
    (hy : l[i]? = some y) : x = y ∨ x ∈ l.eraseIdx i := by
  obtain ⟨j, hj⟩ := List.mem_iff_getElem?.mp hx
  by_cases hij : j = i
  · subst hij
    exact Or.inl (Option.some.inj (hj.symm.trans hy))
  · exact Or.inr (List.mem_eraseIdx_iff_getElem?.mpr ⟨j, hij, hj⟩)

/-- Packets and jobs that stay keep what is under way. -/
theorem UnderWay.mono (h : UnderWay f w ipv4 entry) (hpakets : w.pakets ⊆ w'.pakets)
    (hjobs : w.jobs ipv4 ⊆ w'.jobs ipv4) : UnderWay f w' ipv4 entry := by
  rcases h with hdiscover | hrequest | ⟨paket, hmem, hpaket⟩ | ⟨nodeId, hjob⟩
  · exact Or.inl (hjobs hdiscover)
  · exact Or.inr (Or.inl (hpakets hrequest))
  · exact Or.inr (Or.inr (Or.inl ⟨paket, hpakets hmem, hpaket⟩))
  · exact Or.inr (Or.inr (Or.inr ⟨nodeId, hjobs hjob⟩))

/-- A packet that leaves takes along what is under way only if it is the
request or the response. -/
theorem UnderWay.erase (h : UnderWay f w ipv4 entry) {i : Nat}
    {paket : DiscoveryPaket} (hpaket : w.pakets[i]? = some paket)
    (hpakets : w.pakets.eraseIdx i ⊆ w'.pakets) (hjobs : w.jobs ipv4 ⊆ w'.jobs ipv4)
    (hrequest : paket = request f ipv4 entry.address → UnderWay f w' ipv4 entry)
    (hresponse : paket.resp = true → paket.sourceIPV4 = entry.address → paket.destIPV4 = ipv4 →
      UnderWay f w' ipv4 entry) : UnderWay f w' ipv4 entry := by
  rcases h with hdiscover | hmem | ⟨response, hmem, hresp, hsource, hdest⟩ | ⟨nodeId, hjob⟩
  · exact Or.inl (hjobs hdiscover)
  · rcases eq_or_mem_eraseIdx hmem hpaket with heq | hmem
    · exact hrequest heq.symm
    · exact Or.inr (Or.inl (hpakets hmem))
  · rcases eq_or_mem_eraseIdx hmem hpaket with rfl | hmem
    · exact hresponse hresp hsource hdest
    · exact Or.inr (Or.inr (Or.inl ⟨response, hpakets hmem, hresp, hsource, hdest⟩))
  · exact Or.inr (Or.inr (Or.inr ⟨nodeId, hjobs hjob⟩))

/-- A discovered job that is executed leaves no entry with its address. -/
theorem listed_of_discovered {hostname : String} (h : Entries d) {targetIPV4 : UInt32}
    {nodeId : NodeId}
    (hs : Discovery.step hostname d (.discovered targetIPV4 nodeId) = some d')
    (hmem : some entry ∈ d'.manager.infoToGet) :
    some entry ∈ d.manager.infoToGet ∧ entry.address ≠ targetIPV4 := by
  rcases step_discovered hs with ⟨-, ⟨hmanager, hne⟩ | ⟨found, rest, haddress, hperm, hmanager⟩⟩
  · rw [hmanager] at hmem
    exact ⟨hmem, hne entry hmem⟩
  · rw [hmanager] at hmem
    have hlisted : some entry ∈ d.manager.infoToGet :=
      hperm.mem_iff.mpr (List.mem_cons_of_mem _ hmem)
    refine ⟨hlisted, fun htarget => ?_⟩
    have hfound : some found ∈ d.manager.infoToGet := hperm.mem_iff.mpr List.mem_cons_self
    obtain rfl : entry = found := h.eq_of_address (h.mem_of_listed hlisted)
      (h.mem_of_listed hfound) (htarget.trans haddress.symm)
    -- the entry would be in the list twice
    have hcount := hperm.count_eq (some entry)
    rw [List.count_cons_self] at hcount
    have hrest : 0 < rest.count (some entry) := List.count_pos_iff.mpr hmem
    have hpart := h.kept.partitioned entry
    have hone := List.nodup_iff_count_le_one.mp h.nodup entry
    omega

theorem accepted_subset {hostname : String} {a : Discovery.Action}
    (hs : Discovery.step hostname d a = some d') : d.accepted ⊆ d'.accepted := by
  cases a with
  | addNode added =>
    obtain rfl := Option.some.inj hs
    dsimp only
    split
    · exact List.subset_append_left ..
    · exact List.Subset.refl _
  | discovered targetIPV4 nodeId => exact (step_discovered hs).1 ▸ List.Subset.refl _
  | invalidate nodeId =>
    simp only [Discovery.step] at hs
    split at hs
    · obtain rfl := Option.some.inj hs
      exact List.Subset.refl _
    · cases hs

theorem listed_of_addNode {hostname : String} {added : Entry}
    (hs : Discovery.step hostname d (.addNode added) = some d')
    (hmem : some entry ∈ d'.manager.infoToGet) :
    some entry ∈ d.manager.infoToGet ∨ entry = added := by
  obtain rfl := Option.some.inj hs
  unfold DiscoveryManager.addNode at hmem
  split at hmem
  · rcases List.mem_append.mp hmem with hmem | hmem
    · exact Or.inl hmem
    · exact Or.inr (Option.some.inj (List.mem_singleton.mp hmem))
  · exact Or.inl hmem

/-- A step of another process changes nothing here. -/
theorem Asked.frame (h : Asked f ipv4 entries w) (hnode : w'.node ipv4 = w.node ipv4)
    (hpakets : w.pakets ⊆ w'.pakets) (hjobs : w'.jobs ipv4 = w.jobs ipv4) :
    Asked f ipv4 entries w' where
  accepted := by
    rw [hnode]
    exact h.accepted
  underWay entry hmem halive hlisted := by
    rw [hnode] at hlisted
    exact (h.underWay entry hmem halive hlisted).mono hpakets (hjobs ▸ List.Subset.refl _)

/-- Requests for all entries are sent. -/
theorem Asked.requested (haccepted : entries ⊆ (w.node ipv4).accepted)
    (hnode : w'.node ipv4 = w.node ipv4) {ipv4s : List UInt32}
    (hipv4s : ∀ entry, some entry ∈ (w.node ipv4).manager.infoToGet → entry.address ∈ ipv4s)
    (hpakets : ipv4s.map (request f ipv4) ⊆ w'.pakets) : Asked f ipv4 entries w' where
  accepted := by
    rw [hnode]
    exact haccepted
  underWay entry _ _ hlisted := by
    rw [hnode] at hlisted
    exact Or.inr (Or.inl (hpakets (List.mem_map.mpr ⟨_, hipv4s entry hlisted, rfl⟩)))

theorem Asked.discovered (h : Asked f ipv4 entries w) (he : Entries (w.node ipv4))
    {targetIPV4 : UInt32} {nodeId : NodeId} {jobs : List DiscoveryJob}
    (hjobs : w.jobs ipv4 = .discovered targetIPV4 nodeId :: jobs) {hostname : String}
    (hd : Discovery.step hostname (w.node ipv4) (.discovered targetIPV4 nodeId) = some d) :
    Asked f ipv4 entries ((w.setJobs ipv4 jobs).setNode ipv4 d) where
  accepted := by
    rw [setNode_node_self]
    exact List.Subset.trans h.accepted (accepted_subset hd)
  underWay entry hmem halive hlisted := by
    rw [setNode_node_self] at hlisted
    obtain ⟨hlisted, htarget⟩ := listed_of_discovered he hd hlisted
    rcases h.underWay entry hmem halive hlisted with hdiscover | hrequest | hresponse | ⟨n, hjob⟩
    · rw [hjobs] at hdiscover
      refine Or.inl ?_
      rw [setNode_jobs, setJobs_jobs_self]
      exact (List.mem_cons.mp hdiscover).resolve_left nofun
    · exact Or.inr (Or.inl hrequest)
    · exact Or.inr (Or.inr (Or.inl hresponse))
    · rw [hjobs] at hjob
      refine Or.inr (Or.inr (Or.inr ⟨n, ?_⟩))
      rw [setNode_jobs, setJobs_jobs_self]
      refine (List.mem_cons.mp hjob).resolve_left fun heq => htarget ?_
      exact (DiscoveryJob.discovered.inj heq).1

/-- A node that is added is not one of the entries asked for. -/
theorem Asked.addNode (h : Asked f ipv4 entries w) {added : Entry}
    (hnew : ∀ e ∈ (w.node ipv4).accepted, e.address ≠ added.address) {hostname : String}
    (hd : Discovery.step hostname (w.node ipv4) (.addNode added) = some d) :
    Asked f ipv4 entries (w.setNode ipv4 d) where
  accepted := by
    rw [setNode_node_self]
    exact List.Subset.trans h.accepted (accepted_subset hd)
  underWay entry hmem halive hlisted := by
    rw [setNode_node_self] at hlisted
    rcases listed_of_addNode hd hlisted with hlisted | rfl
    · exact h.underWay entry hmem halive hlisted
    · exact absurd rfl (hnew entry (h.accepted hmem))

/-- A node that is invalidated is asked for again. -/
theorem Asked.invalidate (h : Asked f ipv4 entries w) {nodeId : NodeId} {hostname : String}
    (hd : Discovery.step hostname (w.node ipv4) (.invalidate nodeId) = some d) :
    Asked f ipv4 entries ((w.setNode ipv4 d).addJob ipv4 .discover) where
  accepted := by
    rw [addJob_node, setNode_node_self]
    exact List.Subset.trans h.accepted (accepted_subset hd)
  underWay _ _ _ _ := Or.inl (by simp)

theorem Asked.step {a : Action} (h : Asked f ipv4 entries w) (he : Entries (w.node ipv4))
    (hnew : NewAddress w a) (hkeeps : Keeps ipv4 w a) (hs : step f w a = some w') :
    Asked f ipv4 entries w' := by
  cases step_moves hs with
  | idle => exact h.frame rfl (List.subset_append_left ..) rfl
  | @discover k jobs ipv4s halive hjobs hipv4s =>
    by_cases hk : ipv4 = k
    · subst hk
      exact .requested h.accepted rfl hipv4s (List.subset_append_right ..)
    · exact h.frame rfl (List.subset_append_left ..) (setJobs_jobs_of_ne _ _ hk)
  | @discovered k targetIPV4 nodeId jobs d hjobs hd =>
    by_cases hk : ipv4 = k
    · subst hk
      exact h.discovered he hjobs hd
    · exact h.frame (setNode_node_of_ne _ _ hk) (List.Subset.refl _)
        (by rw [setNode_jobs, setJobs_jobs_of_ne _ _ hk])
  | @answered i paket hpaket halive hresp =>
    refine ⟨h.accepted, fun entry hmem halive hlisted => ?_⟩
    refine (h.underWay entry hmem halive hlisted).erase hpaket (List.subset_append_left ..)
      (List.Subset.refl _) ?_ ?_
    · -- the response is on its way
      rintro rfl
      exact Or.inr (Or.inr (Or.inl ⟨_, List.mem_append_right _ List.mem_cons_self, rfl, rfl, rfl⟩))
    · intro hresponse
      rw [hresp] at hresponse
      cases hresponse
  | @noted i paket hpaket hresp =>
    refine ⟨h.accepted, fun entry hmem halive hlisted => ?_⟩
    refine (h.underWay entry hmem halive hlisted).erase hpaket (List.Subset.refl _) ?_ ?_ ?_
    · by_cases hk : ipv4 = paket.destIPV4
      · subst hk
        rw [addJob_jobs_self]
        exact List.subset_append_left ..
      · rw [addJob_jobs_of_ne _ _ hk]
        exact List.Subset.refl _
    · rintro rfl
      cases hresp
    · -- the discovered job is queued
      rintro - hsource rfl
      refine Or.inr (Or.inr (Or.inr ⟨paket.sourceNodeId, ?_⟩))
      rw [addJob_jobs_self, hsource]
      exact List.mem_append_right _ List.mem_cons_self
  | @lose i =>
    refine ⟨h.accepted, fun entry hmem halive hlisted => ?_⟩
    cases hpaket : w.pakets[i]? with
    | none =>
      have hsame : w.pakets.eraseIdx i = w.pakets :=
        List.eraseIdx_of_length_le (List.getElem?_eq_none_iff.mp hpaket)
      refine (h.underWay entry hmem halive hlisted).mono ?_ (List.Subset.refl _)
      rw [setPakets_pakets, hsame]
      exact List.Subset.refl _
    | some paket =>
      obtain ⟨hsource, hdest⟩ := hkeeps paket hpaket
      refine (h.underWay entry hmem halive hlisted).erase hpaket (List.Subset.refl _)
        (List.Subset.refl _) ?_ ?_
      · rintro rfl
        exact absurd rfl hsource
      · rintro - - hself
        exact absurd hself hdest
  | duplicate => exact h.frame rfl (List.subset_cons_self ..) rfl
  | @addNode k added d hd =>
    by_cases hk : ipv4 = k
    · subst hk
      exact h.addNode hnew hd
    · exact h.frame (setNode_node_of_ne _ _ hk) (List.Subset.refl _) rfl
  | @invalidate k nodeId d hd =>
    by_cases hk : ipv4 = k
    · subst hk
      exact h.invalidate hd
    · exact h.frame (setNode_node_of_ne _ _ hk) (List.Subset.refl _) (addJob_jobs_of_ne _ _ hk)

/-- An idle process asks for everything it has not discovered. -/
theorem asked_of_idle (hs : step f w (.idle ipv4) = some w') :
    Asked f ipv4 (w.node ipv4).accepted w' := by
  cases step_moves hs with
  | idle halive hipv4s =>
    exact .requested (List.Subset.refl _) rfl hipv4s (List.subset_append_right ..)

/-- An entry that is not to be discovered is in a slot. -/
theorem Entries.exists_slot (h : Entries d) (haccepted : entry ∈ d.accepted)
    (hlisted : some entry ∉ d.manager.infoToGet) :
    ∃ nodeId, d.manager.nodeInfo nodeId = some entry := by
  by_contra hnone
  push Not at hnone
  have hslots : d.slots entry = 0 := Finset.sum_eq_zero fun nodeId _ => if_neg (hnone nodeId)
  have hcount := List.count_pos_iff.mpr haccepted
  have hlist := List.count_eq_zero.mpr hlisted
  have hpart := h.kept.partitioned entry
  omega

/-- Once a process has asked and is idle again, and no packet from or to it is
on its way to a process, every node it knew of that has a process is
discovered. -/
theorem discovery_completes (hunique : UniqueIds f) (hconf : DistinctConf f)
    {as bs : List Action} {w₀ : DiscoveryNetwork} (h₀ : Lts.exec (step f) (init f) as = some w₀)
    (hnew : Lts.Along (step f) NewAddress (init f) (as ++ .idle ipv4 :: bs))
    (h : Lts.exec (step f) w₀ (.idle ipv4 :: bs) = some w)
    (hkeeps : Lts.Along (step f) (Keeps ipv4) w₀ (.idle ipv4 :: bs))
    (hjobs : w.jobs ipv4 = [])
    (hpakets : ∀ paket ∈ w.pakets, f.alive paket.destIPV4 = true →
      paket.sourceIPV4 ≠ ipv4 ∧ paket.destIPV4 ≠ ipv4)
    {entry : Entry} (hentry : entry ∈ (w₀.node ipv4).accepted)
    (halive : f.alive entry.address = true) :
    (w.node ipv4).manager.nodeInfo (f.ownNodeId entry.address) = some entry := by
  obtain ⟨hnewas, hnewbs⟩ := Lts.along_append.mp hnew
  have hinv₀ : Inv f w₀ := inv_of_exec hunique hconf hnewas h₀
  obtain ⟨w₁, hidle, hbs⟩ := Lts.exec_cons_eq_some.mp h
  obtain ⟨-, hcond⟩ := Lts.along_cons.mp ((hnewbs w₀ h₀).and hkeeps)
  obtain ⟨hself, -⟩ : f.alive ipv4 = true ∧ w₀.jobs ipv4 = [] := by
    simp only [step] at hidle
    split at hidle
    · assumption
    · cases hidle
  have hinv₁ : Inv f w₁ :=
    ⟨hinv₀.sound.step hidle,
      entries_step (a := .idle ipv4) hunique hinv₀.sound hinv₀.entries trivial hidle⟩
  obtain ⟨hinv, hasked⟩ : Inv f w ∧ Asked f ipv4 (w₀.node ipv4).accepted w := by
    refine Lts.exec_invariant_along
      (I := fun w => Inv f w ∧ Asked f ipv4 (w₀.node ipv4).accepted w)
      (fun s a t hi ha hs => ?_) ⟨hinv₁, asked_of_idle hidle⟩ (hcond w₁ hidle) hbs
    obtain ⟨hi, hasked⟩ := hi
    exact ⟨⟨hi.sound.step hs, entries_step hunique hi.sound hi.entries ha.1 hs⟩,
      hasked.step (hi.entries ipv4) ha.1 ha.2 hs⟩
  have hunlisted : some entry ∉ (w.node ipv4).manager.infoToGet := by
    intro hlisted
    rcases hasked.underWay entry hentry halive hlisted with
      hdiscover | hrequest | ⟨paket, hmem, -, -, hdest⟩ | ⟨nodeId, hjob⟩
    · rw [hjobs] at hdiscover
      cases hdiscover
    · exact absurd rfl (hpakets _ hrequest halive).1
    · exact absurd hdest (hpakets paket hmem (hdest ▸ hself)).2
    · rw [hjobs] at hjob
      cases hjob
  obtain ⟨nodeId, hslot⟩ := (hinv.entries ipv4).exists_slot (hasked.accepted hentry) hunlisted
  have hat : IsAt f entry.address nodeId := hinv.sound.nodeInfo hslot
  rw [hat.2]
  exact hslot

theorem discovery_completes_example :
    ∃ w, Lts.exec (step exampleFabric) (init exampleFabric) (.idle 1 :: exampleRun) = some w ∧
      (w.node 1).manager.nodeInfo 0x22 = some { hostname := "node2", address := 2 } := by
  have hnew : Lts.Along (step exampleFabric) NewAddress (init exampleFabric)
      ([] ++ .idle 1 :: exampleRun) := by decide +kernel
  have hkeeps : Lts.Along (step exampleFabric) (Keeps 1) (init exampleFabric)
      (.idle 1 :: exampleRun) := by decide +kernel
  have hentry : { hostname := "node2", address := 2 } ∈ ((init exampleFabric).node 1).accepted := by
    decide
  exact ⟨_, rfl, discovery_completes exampleFabric_uniqueIds exampleFabric_distinctConf rfl hnew
    rfl hkeeps rfl (by decide +kernel) hentry (by decide)⟩

end

end DiscoveryNetwork

end Ibdxnet.Con
