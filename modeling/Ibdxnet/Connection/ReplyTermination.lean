import Ibdxnet.Connection.Handshake
import Mathlib.Algebra.BigOperators.Group.Multiset.Basic
import Mathlib.Algebra.Group.Action.Defs
import Mathlib.Algebra.Order.BigOperators.Group.Multiset
import Mathlib.Algebra.Order.Group.Nat

/-!
# Replies die out

How often two nodes answer each other's exchange data when nobody creates a
connection and the network duplicates nothing.  A datagram is weighed by the
flags in it, its sender's and those the sender last had of the receiver:

    sender not connected to the receiver     4
    sender connected, exchange not complete  3
    sender complete, receiver's flags not    2
    both complete                            1

Whatever the state of the receiver, its reply is lighter than the datagram it
answers (`weight_reply_lt`), and the last kind is not answered.  So the deliveries
from a state on are bounded by what the datagrams on their way weigh in it
(`Pair.deliveries_bounded`); a link that is closed meanwhile does not matter.
-/

namespace Ibdxnet.Con

open Flags
open ConnectionManager (Params Dispatched)

/-! ## The weight of a datagram -/

/-- How many deliveries the datagram can lead to, its own one included. -/
def ConnectionExchgData.weight (remote : ConnectionExchgData) : Nat :=
  if ¬ Within exchgFlagConnectedToRemote remote.header.exchgFlags then 4
  else if remote.header.exchgFlags ≠ exchgFlagCompleted then 3
  else if remote.header.exchgFlagsRemote ≠ exchgFlagCompleted then 2
  else 1

open ConnectionExchgData (weight)

theorem weight_pos (remote : ConnectionExchgData) : 0 < remote.weight := by
  unfold weight
  split
  · omega
  · split
    · omega
    · split <;> omega

theorem weight_le (remote : ConnectionExchgData) : remote.weight ≤ 4 := by
  unfold weight
  split
  · omega
  · split
    · omega
    · split <;> omega

namespace Link

variable {l : Link} {remote : ConnectionExchgData}

/-- Exchange data of a remote that is connected completes the flags. -/
theorem learnFlags_eq_completed (hproper : ConnectionState.Proper l.state.exchgFlags)
    (hr : Within exchgFlagConnectedToRemote remote.header.exchgFlags) :
    learnFlags l.state.exchgFlags remote.header.exchgFlags = exchgFlagCompleted := by
  rw [(proper_learnFlags hproper _).eq_completed_iff, ConnectionState.completed_within_iff]
  exact ⟨connectedToRemote_within_learnFlags _ _,
    remoteConnected_within_learnFlags_iff.mpr (Or.inr hr)⟩

/-- A reply is lighter than what it answers. -/
theorem weight_reply_lt (hproper : ConnectionState.Proper l.state.exchgFlags)
    (hneeds : (l.learn remote).NeedsAnswer remote) (p : Params) (c : Connection) :
    ((l.learn remote).exchgData p c).weight < remote.weight := by
  have hflags : ((l.learn remote).exchgData p c).header.exchgFlags =
      learnFlags l.state.exchgFlags remote.header.exchgFlags := rfl
  have hremote : ((l.learn remote).exchgData p c).header.exchgFlagsRemote =
      remote.header.exchgFlags := rfl
  have hconnected := connectedToRemote_within_learnFlags l.state.exchgFlags remote.header.exchgFlags
  unfold weight
  rw [hflags, hremote, if_neg (not_not.mpr hconnected)]
  by_cases hr : Within exchgFlagConnectedToRemote remote.header.exchgFlags
  · have hcompleted := learnFlags_eq_completed hproper hr
    rw [hcompleted, if_neg (not_not.mpr rfl), if_neg (not_not.mpr hr)]
    by_cases hfull : remote.header.exchgFlags = exchgFlagCompleted
    · -- the exchange is complete here, so our flags at the remote are outdated
      rw [if_neg (not_not.mpr hfull), if_neg (not_not.mpr hfull)]
      have houtdated : remote.header.exchgFlagsRemote ≠ exchgFlagCompleted := by
        intro hequal
        rcases hneeds with hincomplete | hne
        · have hcomplete : (l.learn remote).state.connectionExchgComplete = true :=
            ConnectionState.connectionExchgComplete_iff.mpr ⟨hcompleted, hfull⟩
          rw [hcomplete] at hincomplete
          cases hincomplete
        · exact hne (hcompleted.trans hequal.symm)
      rw [if_pos houtdated]
      omega
    · rw [if_pos hfull, if_pos hfull]
      omega
  · rw [if_pos hr]
    split
    · omega
    · split <;> omega

end Link

/-! ## What is on its way -/

namespace Exchange

variable {p : Side → Params} {x x' : Exchange} {s : Side}

def pendingWeight (x : Exchange) (s : Side) : Nat := ((x.pending s).map weight).sum

/-- What all datagrams on their way weigh. -/
def weight (x : Exchange) : Nat := x.pendingWeight .a + x.pendingWeight .b

theorem weight_eq (x : Exchange) (s : Side) :
    x.weight = x.pendingWeight s + x.pendingWeight s.other := by
  cases s with
  | a => rfl
  | b => exact Nat.add_comm ..

theorem weight_act (l : Link) (rest sent : Multiset ConnectionExchgData) (calls : List Call) :
    (x.act s l rest sent calls).weight =
      (rest.map ConnectionExchgData.weight).sum + x.pendingWeight s.other +
        (sent.map ConnectionExchgData.weight).sum := by
  rw [weight_eq _ s]
  unfold pendingWeight
  rw [act_pending_self, act_pending_other, Multiset.map_add, Multiset.sum_add, add_assoc]

theorem pendingWeight_of_cons {remote : ConnectionExchgData}
    {rest : Multiset ConnectionExchgData} (hpending : x.pending s = remote ::ₘ rest) :
    x.pendingWeight s = remote.weight + (rest.map ConnectionExchgData.weight).sum := by
  rw [pendingWeight, hpending, Multiset.map_cons, Multiset.sum_cons]

/-- A datagram is taken, and nothing is sent. -/
theorem weight_take {remote : ConnectionExchgData} {rest : Multiset ConnectionExchgData}
    (hpending : x.pending s = remote ::ₘ rest) (l : Link) (calls : List Call) :
    (x.act s l rest 0 calls).weight + 1 ≤ x.weight := by
  have hpos := weight_pos remote
  rw [weight_act, weight_eq x s, pendingWeight_of_cons hpending, Multiset.map_zero,
    Multiset.sum_zero]
  omega

/-- The datagrams a step takes from the network. -/
def Label.takes : Label → Nat
  | .lose _ => 1
  | .connect _ _ => 1
  | .kill _ => 1
  | _ => 0

/-- Every datagram that is taken makes what is on its way lighter, answered or not. -/
theorem Step.weight_le {label : Label} (h : Step p label x x') (hx : ∀ s, (x.link s).Holds)
    (hcreate : ∀ s, label ≠ .create s) (hduplicate : ∀ s, label ≠ .duplicate s) :
    x'.weight + label.takes ≤ x.weight := by
  have hkept : ∀ (s : Side) (l : Link) (calls : List Call),
      (x.act s l (x.pending s) 0 calls).weight = x.weight := by
    intro s l calls
    rw [weight_act, weight_eq x s, Multiset.map_zero, Multiset.sum_zero]
    rfl
  cases h with
  | stutter hcalls => exact Nat.le_of_eq (hkept ..)
  | state hst => exact Nat.le_of_eq (hkept ..)
  | lose hpending => exact weight_take hpending ..
  | @duplicate _ s => exact absurd rfl (hduplicate s)
  | @create _ s => exact absurd rfl (hcreate s)
  | opened hpending halloc hc hcomp hident => exact weight_take hpending ..
  | killed hpending halloc hc hcomp hident => exact weight_take hpending ..
  | @answered _ s remote rest l calls c hpending halloc hc hcomp hneeds =>
    have hproper : ConnectionState.Proper l.state.exchgFlags := by
      cases halloc with
      | kept hc => exact (hx s).proper
      | created hc => exact ((hx s).allocate _ _).proper
    have hlt := Link.weight_reply_lt hproper hneeds (p s) c
    rw [weight_act, weight_eq x s, pendingWeight_of_cons hpending, Multiset.map_singleton,
      Multiset.sum_singleton]
    simp only [Label.takes]
    omega
  | silent hpending halloc hcomp hneeds => exact weight_take hpending ..
  | close hc => exact Nat.le_of_eq (hkept ..)
  | closeAgain hc => exact Nat.le_of_eq (hkept ..)

end Exchange

/-! ## What a job sends -/

namespace ConnectionManager

variable {m m' : ConnectionManager} {env : Environment}

theorem sent_finishedOrAnswered (m : ConnectionManager) (remote : ConnectionExchgData)
    (c : Connection) (ipv4 : UInt32) :
    (m.finishedOrAnswered remote c ipv4).sent.length ≤ m.sent.length + 1 := by
  unfold finishedOrAnswered
  split
  · split <;> exact Nat.le_succ _
  · split
    · simp [answered]
    · exact Nat.le_succ _

/-- Only connect jobs answer, each with one datagram at most. -/
theorem Dispatched.sent_length {job : Job} (hd : Dispatched env m job m')
    (hcreate : ∀ n, job ≠ .createConnection n) :
    m'.sent.length ≤ m.sent.length + job.remote?.toList.length := by
  cases hd with
  | @createDropped n hdrop => exact absurd rfl (hcreate n)
  | @create n => exact absurd rfl (hcreate n)
  | connectDropped hdrop => exact Nat.le_add_right ..
  | @connect remote entry m₁ c hshutdown hinfo halloc hcreated hc =>
    obtain ⟨calls, -, -, -, hsent⟩ := halloc.link
    have hle := sent_finishedOrAnswered (m₁.learn remote) remote c entry.address
    have hlearn : (m₁.learn remote).sent = m.sent := hsent
    rw [hlearn] at hle
    exact hle
  | close hc => exact Nat.le_refl _
  | closeAgain hc => exact Nat.le_refl _
  | discover hipv4s => exact Nat.le_refl _
  | discoveredUnknown htake => exact Nat.le_refl _
  | discovered htake => exact Nat.le_refl _

end ConnectionManager

/-! ## Deliveries -/

namespace Pair

variable {p : Side → Params} {w w' : Pair} {a : Action}

/-- The datagrams that no node has received. -/
def inFlight (w : Pair) : Nat := (w.net .a).length + (w.net .b).length

theorem inFlight_eq (w : Pair) (s : Side) :
    w.inFlight = (w.net s).length + (w.net s.other).length := by
  cases s with
  | a => rfl
  | b => exact Nat.add_comm ..

/-- The job at the head of a queue handles a datagram. -/
def connectsNext (m : ConnectionManager) : Bool :=
  match m.jobQueue with
  | .connectConnection _ :: _ => true
  | _ => false

/-- The datagrams an action handles. -/
def Action.connects (w : Pair) : Action → Nat
  | .runJob s _ => if connectsNext (w.node s) then 1 else 0
  | _ => 0

/-- A datagram is delivered in two steps: it is received, and it is handled. -/
def Action.delivers (w : Pair) : Action → Nat
  | .receive _ _ => 1
  | a => a.connects w

/-- The action neither runs a create job nor duplicates a datagram. -/
def Action.Quiet (w : Pair) : Action → Prop
  | .duplicate _ _ => False
  | .runJob s _ => createsNext (w.node s) = false
  | _ => True

instance Action.instDecidableQuiet (w : Pair) : (a : Action) → Decidable (a.Quiet w)
  | .duplicate _ _ => inferInstanceAs (Decidable False)
  | .runJob s _ => inferInstanceAs (Decidable (createsNext (w.node s) = false))
  | .requestCreation _ => inferInstanceAs (Decidable True)
  | .giveUpCreation _ => inferInstanceAs (Decidable True)
  | .addCreateJob _ => inferInstanceAs (Decidable True)
  | .closeConnection _ _ _ => inferInstanceAs (Decidable True)
  | .discoveryResp _ _ => inferInstanceAs (Decidable True)
  | .receive _ _ => inferInstanceAs (Decidable True)
  | .lose _ _ => inferInstanceAs (Decidable True)

variable (p) in
/-- The datagrams on their way, those of queued connect jobs included. -/
def onTheirWay (w : Pair) : Nat :=
  ((exchange p w).pending .a).card + ((exchange p w).pending .b).card

variable (p) in
/-- What bounds the deliveries from a state on. -/
def deliveryPotential (w : Pair) : Nat := 2 * (exchange p w).weight + w.inFlight

theorem inFlight_actNode {v : Pair} {s : Side} {b : ConnectionManager.Action}
    (h : v.actNode s b = some w') :
    ∃ m, (v.node s).step b = some m ∧ w'.inFlight = v.inFlight + m.sent.length := by
  obtain ⟨m, hm, rfl⟩ := actNode_eq_some h
  refine ⟨m, hm, ?_⟩
  rw [inFlight_eq _ s, inFlight_eq v s]
  simp only [Function.update_self, Function.update_of_ne (Side.ne_other s), List.length_append,
    List.length_map]
  omega

theorem inFlight_eraseIdx {s : Side} {i : Nat} (hi : i < (w.net s).length) :
    ({ w with net := Function.update w.net s ((w.net s).eraseIdx i) } : Pair).inFlight + 1 =
      w.inFlight := by
  rw [inFlight_eq _ s, inFlight_eq w s]
  simp only [Function.update_self, Function.update_of_ne (Side.other_ne s)]
  rw [List.length_eraseIdx_of_lt hi]
  omega

/-- Adding a job and writing a state send nothing. -/
theorem inFlight_actNode_of_silent {v : Pair} {s : Side} {b : ConnectionManager.Action}
    (hsilent : ∀ m, (v.node s).step b = some m → m.sent = [])
    (h : v.actNode s b = some w') : w'.inFlight = v.inFlight := by
  obtain ⟨m, hm, hcount⟩ := inFlight_actNode h
  rw [hcount, hsilent m hm]
  rfl

/-- What is received leaves the network, and what is handled adds one answer at most. -/
theorem inFlight_step (hw : Addressed p w) (hquiet : a.Quiet w) (h : step p w a = some w') :
    a.delivers w + w'.inFlight ≤ w.inFlight + 2 * a.connects w := by
  cases a with
  | requestCreation s | giveUpCreation s | addCreateJob s | closeConnection s _ _
  | discoveryResp s _ =>
    have hsame := inFlight_actNode_of_silent
      (fun m hm => by obtain rfl := Option.some.inj hm; exact hw.sent s) h
    simp [Action.delivers, Action.connects, hsame]
  | receive s i =>
    simp only [step] at h
    cases hremote : (w.net s)[i]? with
    | none => simp [hremote] at h
    | some remote =>
      simp only [hremote] at h
      have hsame := inFlight_actNode_of_silent
        (fun m hm => by obtain rfl := Option.some.inj hm; exact hw.sent s) h
      have hless := inFlight_eraseIdx (List.getElem?_eq_some_iff.mp hremote).1
      simp only [Action.delivers, Action.connects, hsame]
      omega
  | lose s i =>
    simp only [step] at h
    split at h
    · next hi =>
      obtain rfl := Option.some.inj h
      have hless := inFlight_eraseIdx hi
      simp only [Action.delivers, Action.connects]
      omega
    · cases h
  | duplicate s i => exact hquiet.elim
  | runJob s env =>
    obtain ⟨m, hm, hcount⟩ := inFlight_actNode h
    obtain ⟨job, jobQueue, hq, hd⟩ := ConnectionManager.step_runJob hm
    replace hq : (w.node s).jobQueue = job :: jobQueue := hq
    have hsent := hd.sent_length fun n hcreate => by
      subst hcreate
      simp [Action.Quiet, createsNext, hq] at hquiet
    have hnone : ({ w.node s with jobQueue } : ConnectionManager).sent = [] := hw.sent s
    have hconnects : Action.connects w (.runJob s env) = job.remote?.toList.length := by
      cases job <;> simp [Action.connects, connectsNext, hq, Job.remote?]
    have hv : ({ w with
        createJobs := w.createJobs + if createsNext (w.node s) then 1 else 0 } : Pair).inFlight =
        w.inFlight := rfl
    change m.sent.length ≤ ({ w.node s with jobQueue } : ConnectionManager).sent.length + _ at hsent
    rw [hnone, ← hconnects] at hsent
    simp only [List.length_nil, Nat.zero_add] at hsent
    simp only [Action.delivers]
    omega

/-- What handles a datagram takes one from those on their way. -/
theorem Labelled.takes {label : Exchange.Label} (h : Labelled (p := p) w a label) :
    a.connects w ≤ label.takes := by
  cases a with
  | runJob s env =>
    obtain ⟨job, jobQueue, hq, hlabel⟩ := h
    cases job with
    | connectConnection remote =>
      rcases hlabel with rfl | rfl | ⟨rfl, -⟩ <;>
        simp [Action.connects, connectsNext, hq, Exchange.Label.takes]
    | createConnection | closeConnection | discover | discovered =>
      simp [Action.connects, connectsNext, hq]
  | _ => exact Nat.zero_le _

/-- Only a create job and the network itself are kept from quiet runs. -/
theorem Labelled.quiet {label : Exchange.Label} (h : Labelled (p := p) w a label)
    (hquiet : a.Quiet w) :
    (∀ s, label ≠ .create s) ∧ ∀ s, label ≠ .duplicate s := by
  cases a with
  | duplicate s i => exact hquiet.elim
  | runJob s env =>
    obtain ⟨job, jobQueue, hq, hlabel⟩ := h
    cases job with
    | createConnection n => simp [Action.Quiet, createsNext, hq] at hquiet
    | connectConnection remote =>
      rcases hlabel with rfl | rfl | ⟨rfl, -⟩ <;> simp
    | closeConnection | discover | discovered =>
      cases hlabel
      simp
  | _ =>
    cases h
    simp

/-- Every delivery is paid for. -/
theorem deliveryPotential_step (hw : Addressed p w) (hquiet : a.Quiet w)
    (h : step p w a = some w') :
    a.delivers w + deliveryPotential p w' ≤ deliveryPotential p w := by
  obtain ⟨hw', label, hx, hlabel⟩ := step_exchange hw h
  obtain ⟨hcreate, hduplicate⟩ := hlabel.quiet hquiet
  have hweight := hx.weight_le (fun s => hw.holds s _) hcreate hduplicate
  have htakes := hlabel.takes
  have hflight := inFlight_step hw hquiet h
  unfold deliveryPotential
  omega

theorem deliveryPotential_le (w : Pair) : deliveryPotential p w ≤ 9 * onTheirWay p w := by
  have hside : ∀ s, (exchange p w).pendingWeight s ≤ 4 * ((exchange p w).pending s).card ∧
      (w.net s).length ≤ ((exchange p w).pending s).card := by
    intro s
    constructor
    · have hle := Multiset.sum_le_card_nsmul (((exchange p w).pending s).map weight) 4 (by
        intro k hk
        obtain ⟨remote, -, rfl⟩ := Multiset.mem_map.mp hk
        exact weight_le remote)
      rw [Multiset.card_map, smul_eq_mul, Nat.mul_comm] at hle
      exact hle
    · simp [exchange]
  have ha := hside .a
  have hb := hside .b
  unfold deliveryPotential onTheirWay inFlight Exchange.weight
  omega

/-- **Replies die out.** In every reachable state jobs and datagrams are about
the other node; and from every such state on, whatever its flags and datagrams
are, a run without create jobs and duplicates delivers at most nine times as many
datagrams as are on their way at its start, whatever it loses and closes and in
whatever order it delivers. -/
theorem deliveries_bounded :
    (∀ w, Lts.Reachable (step p) (init p) w → Addressed p w) ∧
      ∀ w w' as, Addressed p w → Lts.Along (step p) Action.Quiet w as →
        Lts.exec (step p) w as = some w' →
        Lts.cost (step p) Action.delivers w as ≤ 9 * onTheirWay p w := by
  have hstep : ∀ w a w', Addressed p w → step p w a = some w' → Addressed p w' :=
    fun _ _ _ hw hs => (step_exchange hw hs).1
  refine ⟨fun w hreach => hreach.invariant hstep addressed_init, ?_⟩
  intro w w' as hw hquiet hrun
  have hpays : ∀ w a w', Addressed p w → Action.Quiet w a → step p w a = some w' →
      Action.delivers w a + deliveryPotential p w' ≤ deliveryPotential p w :=
    fun _ _ _ hw hq hs => deliveryPotential_step hw hq hs
  have hpaid := Lts.cost_add_le (fun w a w' hw _ hs => hstep w a w' hw hs) hpays hw hquiet hrun
  have hbound := deliveryPotential_le (p := p) w
  omega

/-- What follows the first datagram of an exchange: three deliveries. -/
def exampleAnswers : List Action :=
  [.receive .b 0, .runJob .b (exampleEnvironment 9), .receive .a 0, .runJob .a {},
    .receive .b 0, .runJob .b {}]

theorem deliveries_bounded_exchange :
    ∃ w w', Lts.exec (step exampleParams) (init exampleParams)
        (exampleDiscovery ++ exampleCreation.take 3) = some w ∧
      Lts.exec (step exampleParams) w exampleAnswers = some w' ∧ onTheirWay exampleParams w = 1 ∧
      Lts.cost (step exampleParams) Action.delivers w exampleAnswers = 6 ∧ 6 ≤ 9 * 1 := by
  have hrun : (Lts.exec (step exampleParams) (init exampleParams)
      (exampleDiscovery ++ exampleCreation.take 3)).map (fun w =>
        ((Lts.exec (step exampleParams) w exampleAnswers).isSome, onTheirWay exampleParams w,
          Lts.cost (step exampleParams) Action.delivers w exampleAnswers,
          decide (Lts.Along (step exampleParams) Action.Quiet w exampleAnswers))) =
      some (true, 1, 6, true) := by
    decide +kernel
  obtain ⟨w, hw, h⟩ := Option.map_eq_some_iff.mp hrun
  simp only [Prod.mk.injEq, decide_eq_true_eq] at h
  obtain ⟨hsome, hone, hsix, hquiet⟩ := h
  obtain ⟨w', hw'⟩ := Option.isSome_iff_exists.mp hsome
  obtain ⟨haddressed, hbounded⟩ := deliveries_bounded (p := exampleParams)
  have hle := hbounded w w' _ (haddressed w ⟨_, hw⟩) hquiet hw'
  rw [hsix, hone] at hle
  exact ⟨w, w', hw, hw', hone, hsix, hle⟩

end Pair

end Ibdxnet.Con
