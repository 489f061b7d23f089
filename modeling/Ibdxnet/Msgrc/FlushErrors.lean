import Ibdxnet.Msgrc.SendFailures

/-!
# Flush errors after a disconnect

Which completions with `IBV_WC_WR_FLUSH_ERR` the send dispatcher ignores, and
which it should: those of work requests that were posted to a node before a
disconnect of it was handled.  The dispatcher does not keep these (`doomed`); it
adds what is pending to one countdown for all nodes when it handles a
disconnect, and every completion takes one from it.  So in every run

    m_ignoreFlushErrOnPendingCompletions = old + surplus - late   (0 if less)

with `old` of the work requests outstanding at the last disconnect still to
come, `late` later ones completed since, and a `surplus` the disconnect left:
what was left of the ones before it, and the completions that were polled and
then dropped, which stay pending for good.  What is ignored is decided by the
order in which old and later requests complete.
-/

namespace Ibdxnet.Msgrc

open Ibdxnet.Con Sys

/-- The node of a `CloseConnection`. -/
def ConnectionCall.closedNode : ConnectionCall → Option NodeId
  | .closeConnection nodeId _ => some nodeId
  | .getConnection _ | .returnConnection _ => none

/-- The send dispatcher, with a record of what was outstanding when a node failed. -/
structure FlushWorld where
  world : SendWorld
  /-- Outstanding, and posted to a node before a disconnect of it was handled. -/
  doomed : List PostedWr
  /-- Outstanding when the last disconnect was handled, and completed by no call since. -/
  old : List PostedWr
  /-- What the last disconnect left besides the `old` work requests: what was left of those
  before it, and the completions dropped (less than nothing if the `uint32_t` sum wrapped). -/
  surplus : Int
  /-- Completions of work requests posted after the last disconnect. -/
  late : Nat
  /-- Completions that were polled and then dropped, by a disconnect of their batch. -/
  dropped : Nat

namespace FlushWorld

def init (cfg : SendConfig) : FlushWorld where
  world := .init cfg
  doomed := []
  old := []
  surplus := 0
  late := 0
  dropped := 0

/-- The nodes a call of `Dispatch` requested to close, which it does when it
handles a disconnect. -/
def closedNodes (w w' : SendWorld) : List NodeId :=
  (w'.calls.drop w.calls.length).filterMap ConnectionCall.closedNode

/-- The world in which a call of `Dispatch` gets to `__PollCompletions`. -/
def pollsIn (cfg : SendConfig) (env : DispatchEnv) (w : SendWorld) : Option SendWorld :=
  match env.workPackage with
  | none => none
  | some workPackage =>
    if workPackage.nodeId = nodeIdInvalid then some w.beginDispatch
    else
      match env.getConnection with
      | .error (.timeout _) => some w.beginDispatch
      | .error _ => none
      | .ok c =>
        let connection := { c with remoteNodeId := workPackage.nodeId }
        match (SendWorld.sendData cfg env connection workPackage).run
            (w.beginDispatch.connect connection) with
        | .ok _ w₁ => some { w₁ with calls := w₁.calls ++ [.returnConnection workPackage.nodeId] }
        | .error _ _ => none

/-- The completions a call of `Dispatch` polls. -/
def batch (cfg : SendConfig) (env : DispatchEnv) (w : SendWorld) :
    List (PostedWr × IbvWcStatus) :=
  match pollsIn cfg env w with
  | some w₁ => if 0 < w₁.dispatcher.completionsPending then (w₁.polled cfg env).1 else []
  | none => []

/-- The doomed work requests behind a call: those that still are, and all of a
node whose disconnect was handled. -/
def doomedAfter (s : FlushWorld) (w' : SendWorld) : List PostedWr :=
  w'.outstanding.filter fun p => p ∈ s.doomed ∨ p.nodeId ∈ closedNodes s.world w'

/-- The old work requests left once `done` are completed. -/
def oldAfter (s : FlushWorld) (done : List PostedWr) : List PostedWr :=
  s.old.filter fun p => p ∉ done

/-- The completions of later work requests, those in `done` included. -/
def lateAfter (s : FlushWorld) (done : List PostedWr) : Nat :=
  s.late + (done.filter fun p => p ∉ s.old).length

/-- What was added to the countdown at the last disconnect and has not been taken from it. -/
def left (s : FlushWorld) (done : List PostedWr) : Int :=
  (s.oldAfter done).length + s.surplus - s.lateAfter done

/-- The completions dropped, those of the batch that are not in `done` included. -/
def droppedAfter (s : FlushWorld) (polled : List (PostedWr × IbvWcStatus)) (done : List PostedWr) :
    Nat :=
  s.dropped + (polled.length - done.length)

/-- The record behind a call that led to `w'`.  A disconnect adds all that is pending to
what is left, and makes all that is outstanding old. -/
def after (cfg : SendConfig) (env : DispatchEnv) (s : FlushWorld) (w' : SendWorld) : FlushWorld :=
  let polled := batch cfg env s.world
  let done := processed polled
  let dropped := s.droppedAfter polled done
  if closedNodes s.world w' = [] then
    { world := w'
      doomed := s.doomedAfter w'
      old := s.oldAfter done
      surplus := s.surplus
      late := s.lateAfter done
      dropped }
  else
    { world := w'
      doomed := s.doomedAfter w'
      old := w'.outstanding
      surplus := (((s.left done).toNat + w'.outstanding.length + dropped) % 2 ^ 32 : Nat) -
        (w'.outstanding.length : Int)
      late := 0
      dropped }

/-- One call of `Dispatch` that returns. -/
def step (cfg : SendConfig) (s : FlushWorld) (env : DispatchEnv) : Option FlushWorld :=
  (SendWorld.step cfg s.world env).map (s.after cfg env)

/-- The loop processes the flush error of this work request to the end. -/
def Ignored (d : SendDispatcher) (p : PostedWr) : Prop :=
  ∃ d', (SendDispatcher.complete ⟨p.wr.wrId, .wrFlushErr⟩).run d = .ok () d'

/-- Every flush error the loop reaches is ignored exactly if its work request is
doomed, and then nothing is thrown for it. -/
def IgnoresDoomed (cfg : SendConfig) (s : FlushWorld) (env : DispatchEnv) : Prop :=
  ∀ w₁, pollsIn cfg env s.world = some w₁ → 0 < w₁.dispatcher.completionsPending → ∀ k p d,
    (w₁.polled cfg env).1[k]? = some (p, .wrFlushErr) →
    (SendDispatcher.completeAll ((workComps (w₁.polled cfg env).1).take k)).run w₁.dispatcher =
      .ok () d →
    (Ignored d p ↔ p ∈ s.doomed) ∧
      (p ∈ s.doomed → ∀ e d',
        (SendDispatcher.complete ⟨p.wr.wrId, .wrFlushErr⟩).run d ≠ .error e d')

/-- The flush error of `p` comes in time, `done` being completed in the same batch before it:
of a doomed work request while fewer later requests have completed than old ones are still to
come, the surplus counted in; of another one not before as many have. -/
structure InTime (s : FlushWorld) (done : List PostedWr) (p : PostedWr) : Prop where
  doomed : p ∈ s.doomed → (s.lateAfter done : Int) < (s.oldAfter done).length + s.surplus
  other : p ∉ s.doomed → (s.oldAfter done).length + s.surplus ≤ s.lateAfter done

/-- Every flush error of the batch comes in time, up to the first completion that is neither
successful nor the flush error of a doomed work request. -/
def Timely (cfg : SendConfig) (s : FlushWorld) (env : DispatchEnv) : Prop :=
  let polled := batch cfg env s.world
  ∀ (k : Nat) (hk : k < polled.length), polled[k].2 = .wrFlushErr →
    (∀ c ∈ polled.take k, c.2 = .success ∨ c.2 = .wrFlushErr ∧ c.1 ∈ s.doomed) →
    InTime s ((polled.take k).map Prod.fst) polled[k].1

instance InTime.instDecidable (s : FlushWorld) (done : List PostedWr) (p : PostedWr) :
    Decidable (InTime s done p) :=
  decidable_of_iff
    ((p ∈ s.doomed → (s.lateAfter done : Int) < (s.oldAfter done).length + s.surplus) ∧
      (p ∉ s.doomed → (s.oldAfter done).length + s.surplus ≤ s.lateAfter done))
    ⟨fun h => ⟨h.1, h.2⟩, fun h => ⟨h.doomed, h.other⟩⟩

instance Timely.instDecidable (cfg : SendConfig) (s : FlushWorld) (env : DispatchEnv) :
    Decidable (Timely cfg s env) :=
  inferInstanceAs (Decidable (∀ (k : Nat) (hk : k < (batch cfg env s.world).length),
    (batch cfg env s.world)[k].2 = .wrFlushErr →
    (∀ c ∈ (batch cfg env s.world).take k, c.2 = .success ∨ c.2 = .wrFlushErr ∧ c.1 ∈ s.doomed) →
    InTime s (((batch cfg env s.world).take k).map Prod.fst) (batch cfg env s.world)[k].1))

theorem inTime_iff {s : FlushWorld} {done : List PostedWr} {p : PostedWr} :
    InTime s done p ↔ (0 < s.left done ↔ p ∈ s.doomed) := by
  unfold left
  constructor
  · rintro ⟨hdoomed, hother⟩
    constructor
    · intro hleft
      by_contra hp
      have := hother hp
      omega
    · intro hp
      have := hdoomed hp
      omega
  · intro h
    exact ⟨fun hp => by have := h.mpr hp; omega, fun hp => by have := mt h.mp hp; omega⟩

/-! ## The record -/

/-- Each completion takes one from what is left, of an old work request or of a later one. -/
theorem left_eq {s : FlushWorld} {done : List PostedWr} (hold : s.old.Nodup)
    (hdone : done.Nodup) : s.left done = s.left [] - done.length := by
  have hperm : (s.old.filter fun p => p ∈ done).Perm (done.filter fun p => p ∈ s.old) := by
    rw [List.perm_ext_iff_of_nodup (hold.filter _) (hdone.filter _)]
    intro p
    simp only [List.mem_filter, decide_eq_true_eq]
    exact and_comm
  have hboth := hperm.length_eq
  have hsplit := s.old.length_eq_length_filter_add fun p => decide (p ∈ done)
  have hsplit' := done.length_eq_length_filter_add fun p => decide (p ∈ s.old)
  simp only [left, oldAfter, lateAfter, decide_not, List.not_mem_nil, decide_false, Bool.not_false,
    List.filter_true, List.filter_nil, List.length_nil] at *
  omega

section
variable {cfg : SendConfig} {env : DispatchEnv} {workPackage : NextWorkPackage}
  {s s' : FlushWorld} {w w' w₁ : SendWorld}

theorem pollsIn_of_sends (hwp : env.workPackage = some workPackage)
    (hs : SendWorld.Sends cfg env workPackage w.beginDispatch w₁) :
    pollsIn cfg env w = some w₁ := by
  cases hs with
  | idle hidle => simp only [pollsIn, hwp, if_pos hidle]
  | sent hne hc hconnection hrun =>
    subst hconnection
    simp only [pollsIn, hwp, if_neg hne, hc, hrun]

theorem pollsIn_of_timeout {reason : String} (hwp : env.workPackage = some workPackage)
    (hc : env.getConnection = .error (.timeout reason)) :
    pollsIn cfg env w = some w.beginDispatch := by
  simp only [pollsIn, hwp, hc, ite_self]

theorem pollsIn_of_disconnected {nodeId : NodeId} (hwp : env.workPackage = some workPackage)
    (hne : workPackage.nodeId ≠ nodeIdInvalid)
    (hc : env.getConnection = .error (.disconnected nodeId)) : pollsIn cfg env w = none := by
  simp only [pollsIn, hwp, if_neg hne, hc]

theorem sends_of_pollsIn (h : pollsIn cfg env w = some w₁) :
    w₁ = w.beginDispatch ∨ ∃ workPackage, env.workPackage = some workPackage ∧
      SendWorld.Sends cfg env workPackage w.beginDispatch w₁ := by
  unfold pollsIn at h
  split at h
  · cases h
  · next workPackage hwp =>
    split at h
    · exact Or.inl (Option.some.inj h).symm
    · next hne =>
      split at h
      · exact Or.inl (Option.some.inj h).symm
      · cases h
      · next c hc =>
        simp only at h
        split at h
        · next hrun =>
          obtain rfl := Option.some.inj h
          exact Or.inr ⟨workPackage, hwp, .sent hne hc rfl hrun⟩
        · cases h

/-- All that is posted is counted: what is pending beyond the outstanding work requests
stays the same. -/
theorem pending_of_sends {dropped : Nat} (h : w.Covered cfg)
    (hs : SendWorld.Sends cfg env workPackage w w₁)
    (hpending : w.dispatcher.completionsPending = w.outstanding.length + dropped) :
    w₁.dispatcher.completionsPending = w₁.outstanding.length + dropped := by
  have h₁ := h.sends hs
  obtain ⟨free, h⟩ := h
  cases hs with
  | idle => exact hpending
  | sent hne hc hconnection hrun =>
    obtain ⟨ids, rest, p, rfl, hlen, hp, hsize,
      ⟨rfl, rfl⟩ | ⟨-, -, sendWrs, posted, hposted, rfl⟩⟩ :=
      SendWorld.run_sendData_ok (w := w.connect _) h.holds hrun
    · exact hpending
    · have hposlen : posted.length = ids.length := by
        rw [← SendWorld.map_wrId_posted hlen hposted, List.length_map]
      have hroom : ids.length ≤ cfg.ibSQSize.toNat - _ := hlen ▸ length_requests_le _ _ _
      have hle := h.completionsPending_le
      have hsq := cfg.ibSQSize.toNat_lt
      change (w.dispatcher.completionsPending + posted.length) % 2 ^ 32 =
        (w.outstanding ++ posted.map (PostedWr.mk _)).length + dropped
      rw [Nat.mod_eq_of_lt (by omega), List.length_append, List.length_map]
      omega

/-- What sending leaves alone, and the calls it makes. -/
theorem frame_of_sends (h : w.Covered cfg) (hs : SendWorld.Sends cfg env workPackage w w₁) :
    w₁.dispatcher.ignoreFlushErrOnPendingCompletions =
        w.dispatcher.ignoreFlushErrOnPendingCompletions ∧
      ∃ calls, w₁.calls = w.calls ++ calls ∧ calls.filterMap ConnectionCall.closedNode = [] := by
  obtain ⟨free, h⟩ := h
  cases hs with
  | idle => exact ⟨rfl, [], by simp, rfl⟩
  | sent hne hc hconnection hrun =>
    obtain ⟨ids, rest, p, rfl, hlen, hp, hsize,
      ⟨rfl, rfl⟩ | ⟨-, -, sendWrs, posted, hposted, rfl⟩⟩ :=
      SendWorld.run_sendData_ok (w := w.connect _) h.holds hrun
    · exact ⟨rfl, _, List.append_assoc _ _ _, rfl⟩
    · exact ⟨rfl, _, List.append_assoc _ _ _, rfl⟩

theorem frame_of_pollsIn (h : w.Covered cfg) (hp : pollsIn cfg env w = some w₁) :
    w₁.Covered cfg ∧ w₁.dispatcher.ignoreFlushErrOnPendingCompletions =
        w.dispatcher.ignoreFlushErrOnPendingCompletions := by
  rcases sends_of_pollsIn hp with rfl | ⟨workPackage, -, hsends⟩
  · exact ⟨h.begin, rfl⟩
  · exact ⟨h.begin.sends hsends, (frame_of_sends h.begin hsends).1⟩

theorem pending_of_pollsIn {dropped : Nat} (h : w.Covered cfg) (hp : pollsIn cfg env w = some w₁)
    (hpending : w.dispatcher.completionsPending = w.outstanding.length + dropped) :
    w₁.dispatcher.completionsPending = w₁.outstanding.length + dropped := by
  rcases sends_of_pollsIn hp with rfl | ⟨workPackage, -, hsends⟩
  · exact hpending
  · exact pending_of_sends h.begin hsends hpending

theorem batch_eq (h : w₁.Covered cfg) (hp : pollsIn cfg env w = some w₁) :
    batch cfg env w = (w₁.polled cfg env).1 := by
  simp only [batch, hp]
  split
  · rfl
  · next hzero =>
    -- nothing is polled as nothing is outstanding
    obtain ⟨free, h⟩ := h.covers_polled env
    have hlen := h.length_le_completionsPending
    rw [List.length_append, List.length_map] at hlen
    exact (List.length_eq_zero_iff.mp (by omega)).symm

/-- A poll completes no work request twice. -/
theorem nodup_outstanding (h : w.Covered cfg) : w.outstanding.Nodup := by
  obtain ⟨free, h⟩ := h
  exact (List.nodup_append.mp h.nodup).2.1.of_map _

theorem nodup_polled (h : w.Covered cfg) : ((w.polled cfg env).1.map Prod.fst).Nodup := by
  obtain ⟨free, h⟩ := h.covers_polled env
  exact (List.nodup_append.mp ((List.nodup_append.mp h.nodup).2.1.of_map _)).1

theorem nodup_batch (h : w.Covered cfg) : ((batch cfg env w).map Prod.fst).Nodup := by
  cases hp : pollsIn cfg env w with
  | none => simp [batch, hp]
  | some w₁ =>
    have h₁ := (frame_of_pollsIn h hp).1
    rw [batch_eq h₁ hp]
    exact nodup_polled h₁

/-- What is pending is outstanding or was dropped, and the countdown is what the record says
is left. -/
structure Counted (cfg : SendConfig) (s : FlushWorld) : Prop where
  covered : s.world.Covered cfg
  nodup : s.old.Nodup
  pending : s.world.dispatcher.completionsPending = s.world.outstanding.length + s.dropped
  countdown : s.world.dispatcher.ignoreFlushErrOnPendingCompletions = (s.left []).toNat

theorem init_counted (cfg : SendConfig) : Counted cfg (init cfg) where
  covered := ⟨_, Covers.init cfg⟩
  nodup := List.nodup_nil
  pending := rfl
  countdown := rfl

theorem Counted.left_eq (h : Counted cfg s) {done : List PostedWr} (hdone : done.Nodup) :
    s.world.dispatcher.ignoreFlushErrOnPendingCompletions - done.length =
      (s.left done).toNat := by
  rw [h.countdown, FlushWorld.left_eq h.nodup hdone]
  omega

theorem closedNodes_eq {calls : List ConnectionCall} (h : w'.calls = w.calls ++ calls) :
    closedNodes w w' = calls.filterMap ConnectionCall.closedNode := by
  rw [closedNodes, h, List.drop_left]

theorem closedNodes_beginDispatch (w : SendWorld) : closedNodes w w.beginDispatch = [] := by
  show _ = List.filterMap ConnectionCall.closedNode []
  exact closedNodes_eq (List.append_nil _).symm

/-! ## One call -/

/-- The loop leaves pending what is not polled, and what it drops of the batch. -/
theorem pending_of_completeAll {d : SendDispatcher} (h : w.Covered cfg)
    (hpending : w.dispatcher.completionsPending = w.outstanding.length + s.dropped)
    (hd : w.completed cfg env = .ok () d ∨ ∃ nodeId,
      w.completed cfg env = .error (.disconnected nodeId) d) :
    d.completionsPending = (w.polled cfg env).2.length +
      s.droppedAfter (w.polled cfg env).1 (processed (w.polled cfg env).1) := by
  obtain ⟨free, hcovers⟩ := h.covers_polled env
  obtain ⟨-, hcount, -⟩ := hcovers.completeAll hd
  have hperm := (pollOutstanding_perm w.outstanding
    ((env.pollCq.getD []).take cfg.ibSharedSCQSize.toNat)).length_eq
  change w.outstanding.length =
    ((w.polled cfg env).1.map Prod.fst ++ (w.polled cfg env).2).length at hperm
  rw [List.length_append, List.length_map] at hperm
  have hle : (processed (w.polled cfg env).1).length ≤ (w.polled cfg env).1.length := by
    rw [processed, List.length_map]
    exact (List.takeWhile_sublist _).length_le
  rw [droppedAfter]
  omega

/-- A call without a disconnect: each completion processed takes one from the countdown. -/
theorem Counted.goesOn (h : Counted cfg s) (hcovered : w'.Covered cfg)
    (hpending : w'.dispatcher.completionsPending = w'.outstanding.length +
      s.droppedAfter (batch cfg env s.world) (processed (batch cfg env s.world)))
    (hcountdown : w'.dispatcher.ignoreFlushErrOnPendingCompletions =
      s.world.dispatcher.ignoreFlushErrOnPendingCompletions -
        (processed (batch cfg env s.world)).length)
    (hclosed : closedNodes s.world w' = []) : Counted cfg (s.after cfg env w') := by
  have hdone : (processed (batch cfg env s.world)).Nodup :=
    (nodup_batch h.covered).sublist ((List.takeWhile_sublist _).map _)
  rw [after, if_pos hclosed]
  refine ⟨hcovered, h.nodup.filter _, hpending, ?_⟩
  rw [hcountdown, h.left_eq hdone]
  simp [left, oldAfter, lateAfter]

/-- A call with a disconnect: what is pending is added to what was left. -/
theorem Counted.disconnect (h : Counted cfg s) (hcovered : w'.Covered cfg)
    (hpending : w'.dispatcher.completionsPending = w'.outstanding.length +
      s.droppedAfter (batch cfg env s.world) (processed (batch cfg env s.world)))
    (hcountdown : w'.dispatcher.ignoreFlushErrOnPendingCompletions =
      (s.world.dispatcher.ignoreFlushErrOnPendingCompletions -
        (processed (batch cfg env s.world)).length + w'.dispatcher.completionsPending) % 2 ^ 32)
    (hclosed : closedNodes s.world w' ≠ []) : Counted cfg (s.after cfg env w') := by
  have hdone : (processed (batch cfg env s.world)).Nodup :=
    (nodup_batch h.covered).sublist ((List.takeWhile_sublist _).map _)
  rw [after, if_neg hclosed]
  refine ⟨hcovered, nodup_outstanding hcovered, hpending, ?_⟩
  rw [hcountdown, h.left_eq hdone, hpending, ← Nat.add_assoc]
  simp only [left, oldAfter, lateAfter, List.not_mem_nil, not_false_eq_true, decide_true,
    List.filter_true, List.filter_nil, List.length_nil]
  omega

/-- A poll to the end, in a call that handles no disconnect. -/
theorem Counted.polls (h : Counted cfg s) (hin : pollsIn cfg env s.world = some w₁)
    (hp : SendWorld.Polls cfg env w₁ w') (hclosed : closedNodes s.world w₁ = []) :
    Counted cfg (s.after cfg env w') := by
  obtain ⟨h₁, hignore⟩ := frame_of_pollsIn h.covered hin
  have hcalls : w'.calls = w₁.calls := by cases hp <;> rfl
  have hpending₁ := pending_of_pollsIn h.covered hin h.pending
  refine h.goesOn (h₁.polls hp) ?_ ?_ (by rwa [closedNodes, hcalls])
  · cases hp with
    | nothing hzero =>
      rw [hpending₁]
      simp [batch, hin, hzero, processed, droppedAfter]
    | all hd =>
      rw [batch_eq h₁ hin]
      exact pending_of_completeAll h₁ hpending₁ (Or.inl hd)
  · cases hp with
    | nothing hzero => simp [hignore, batch, hin, hzero, processed]
    | all hd =>
      obtain ⟨free, hcovers⟩ := h₁.covers_polled env
      rw [batch_eq h₁ hin, ← hignore]
      exact (hcovers.completeAll (Or.inl hd)).2.2

theorem closedNodes_disconnect (nodeId : NodeId) {calls : List ConnectionCall}
    (h : w₁.calls = w.calls ++ calls) : closedNodes w (w₁.disconnect nodeId) ≠ [] := by
  have hcalls : (w₁.disconnect nodeId).calls = w.calls ++ (calls ++
      (w₁.connection.toList.map fun c => ConnectionCall.returnConnection c.remoteNodeId) ++
        [.closeConnection nodeId true]) := by
    simp [SendWorld.disconnect, h]
  rw [closedNodes_eq hcalls]
  simp [ConnectionCall.closedNode]

theorem Counted.step (h : Counted cfg s) (hs : step cfg s env = some s') : Counted cfg s' := by
  obtain ⟨w', hw', rfl⟩ := Option.map_eq_some_iff.mp hs
  obtain ⟨workPackage, hwp, ⟨w₁, hsends, hpolls | ⟨nodeId, d, hd, rfl⟩⟩ |
    ⟨hne, ⟨⟨reason, hc⟩, hpolls⟩ | ⟨nodeId, hc, rfl⟩⟩⟩ := SendWorld.step_cases hw'
  · obtain ⟨-, calls, hcalls, hclosed⟩ := frame_of_sends h.covered.begin hsends
    exact h.polls (pollsIn_of_sends hwp hsends) hpolls
      ((closedNodes_eq (w := s.world) hcalls).trans hclosed)
  · have hin := pollsIn_of_sends hwp hsends
    obtain ⟨h₁, hignore⟩ := frame_of_pollsIn h.covered hin
    obtain ⟨-, calls, hcalls, -⟩ := frame_of_sends h.covered.begin hsends
    obtain ⟨free, hcovers⟩ := h₁.covers_polled env
    obtain ⟨-, -, hcountdown⟩ := hcovers.completeAll (Or.inr ⟨nodeId, hd⟩)
    have hpending := pending_of_completeAll h₁ (pending_of_pollsIn h.covered hin h.pending)
      (Or.inr ⟨nodeId, hd⟩)
    refine h.disconnect (h.covered.step hw') ?_ ?_ (closedNodes_disconnect nodeId hcalls)
    · rw [batch_eq h₁ hin]
      exact hpending
    · rw [batch_eq h₁ hin, ← hignore, ← hcountdown]
      rfl
  · exact h.polls (pollsIn_of_timeout hwp hc) hpolls (closedNodes_beginDispatch s.world)
  · refine h.disconnect (h.covered.step hw') ?_ ?_
      (closedNodes_disconnect nodeId (List.append_nil _).symm)
    · simp only [batch, pollsIn_of_disconnected hwp hne hc]
      exact h.pending
    · simp only [batch, pollsIn_of_disconnected hwp hne hc]
      rfl

/-! ## The condition -/

/-- A flush error the loop reaches at position `k` is ignored exactly below the countdown. -/
theorem ignored_iff (h : w₁.Covered cfg) {k : Nat} {p : PostedWr} {d : SendDispatcher}
    (hk : (w₁.polled cfg env).1[k]? = some (p, .wrFlushErr))
    (hrun : (SendDispatcher.completeAll ((workComps (w₁.polled cfg env).1).take k)).run
      w₁.dispatcher = .ok () d) :
    Reaches w₁.dispatcher.ignoreFlushErrOnPendingCompletions (w₁.polled cfg env).1 k ∧
      (Ignored d p ↔ k < w₁.dispatcher.ignoreFlushErrOnPendingCompletions) := by
  obtain ⟨free, h⟩ := h.covers_polled env
  obtain ⟨hlt, -⟩ := List.getElem?_eq_some_iff.mp hk
  have hreaches := (h.run_completeAll_take_ok_iff hlt.le).mp ⟨d, hrun⟩
  obtain ⟨d₁, free₁, hok, h₁, -, -, hignore⟩ := h.run_completeAll_reached hk hreaches
  obtain rfl := (EStateM.Result.ok.inj (hok.symm.trans hrun)).2
  refine ⟨hreaches, ?_⟩
  rw [Ignored, h₁.run_complete_ok_iff, GoesOn, hignore]
  simp only [reduceCtorEq, true_and, false_or]
  omega

theorem ignoresDoomed_iff (h : s.world.Covered cfg) :
    IgnoresDoomed cfg s env ↔ ∀ k p, (batch cfg env s.world)[k]? = some (p, .wrFlushErr) →
      Reaches s.world.dispatcher.ignoreFlushErrOnPendingCompletions (batch cfg env s.world) k →
      (k < s.world.dispatcher.ignoreFlushErrOnPendingCompletions ↔ p ∈ s.doomed) := by
  constructor
  · intro hignores k p hk hreaches
    cases hin : pollsIn cfg env s.world with
    | none => simp [batch, hin] at hk
    | some w₁ =>
      obtain ⟨h₁, hignore⟩ := frame_of_pollsIn h hin
      have hpending : 0 < w₁.dispatcher.completionsPending := by
        by_contra hzero
        simp [batch, hin, hzero] at hk
      rw [batch_eq h₁ hin] at hk hreaches
      rw [← hignore] at hreaches ⊢
      obtain ⟨free, hcovers⟩ := h₁.covers_polled env
      obtain ⟨d, -, hrun, -⟩ := hcovers.run_completeAll_reached hk hreaches
      rw [← (ignored_iff h₁ hk hrun).2]
      exact (hignores w₁ hin hpending k p d hk hrun).1
  · intro hcounts w₁ hin _ k p d hk hrun
    obtain ⟨h₁, hignore⟩ := frame_of_pollsIn h hin
    obtain ⟨hreaches, hiff⟩ := ignored_iff h₁ hk hrun
    rw [batch_eq h₁ hin] at hcounts
    rw [hignore] at hreaches hiff
    have hdoomed : Ignored d p ↔ p ∈ s.doomed := hiff.trans (hcounts k p hk hreaches)
    refine ⟨hdoomed, fun hmem e d' herror => ?_⟩
    obtain ⟨d₂, hok⟩ := hdoomed.mpr hmem
    rw [hok] at herror
    cases herror

/-- Where the flush errors before position `k` are ignored exactly if they are doomed, the
loop reaches it past successful and doomed completions, and past no others. -/
theorem reaches_iff {n k : Nat} {polled : List (PostedWr × IbvWcStatus)} {doomed : List PostedWr}
    (hk : k ≤ polled.length) (h : ∀ j p, j < k → polled[j]? = some (p, .wrFlushErr) →
      (j < n ↔ p ∈ doomed)) :
    Reaches n polled k ↔
      ∀ c ∈ polled.take k, c.2 = .success ∨ c.2 = .wrFlushErr ∧ c.1 ∈ doomed := by
  constructor
  · intro hreaches c hc
    obtain ⟨j, hj, rfl⟩ := List.getElem_of_mem hc
    rw [List.length_take] at hj
    have hget : polled[j]? = some (polled.take k)[j] := by
      rw [List.getElem_take, List.getElem?_eq_getElem]
    rcases hreaches j _ (by omega) hget with hsuccess | ⟨hflush, hne⟩
    · exact Or.inl hsuccess
    · refine Or.inr ⟨hflush, (h j _ (by omega) ?_).mp (by omega)⟩
      rw [hget, ← hflush]
  · intro hall j c hj hc
    have hmem : c ∈ polled.take k := by
      rw [List.mem_take_iff_getElem]
      obtain ⟨hlt, hget⟩ := List.getElem?_eq_some_iff.mp hc
      exact ⟨j, by omega, hget⟩
    rcases hall c hmem with hsuccess | ⟨hflush, hdoomed⟩
    · exact Or.inl hsuccess
    · have hlt := (h j c.1 hj (by rw [hc, ← hflush])).mpr hdoomed
      exact Or.inr ⟨hflush, by omega⟩

theorem Counted.ignoresDoomed_iff_timely (h : Counted cfg s) :
    IgnoresDoomed cfg s env ↔ Timely cfg s env := by
  rw [ignoresDoomed_iff h.covered]
  -- at position `k` the countdown is what the record leaves of it
  have hinTime : ∀ k p, k < (batch cfg env s.world).length →
      (InTime s (((batch cfg env s.world).take k).map Prod.fst) p ↔
        (k < s.world.dispatcher.ignoreFlushErrOnPendingCompletions ↔ p ∈ s.doomed)) := by
    intro k p hk
    have hdone : (((batch cfg env s.world).take k).map Prod.fst).Nodup :=
      (nodup_batch h.covered).sublist ((List.take_sublist _ _).map _)
    have hleft := h.left_eq hdone
    rw [List.length_map, List.length_take, Nat.min_eq_left hk.le] at hleft
    rw [inTime_iff]
    exact iff_congr (by omega) Iff.rfl
  constructor
  · intro hcounts k hk hflush hfront
    have hk' : (batch cfg env s.world)[k]? = some ((batch cfg env s.world)[k].1, .wrFlushErr) := by
      rw [List.getElem?_eq_getElem hk, ← hflush]
    rw [hinTime k _ hk]
    refine hcounts k _ hk' ?_
    -- by induction the loop reaches every position up to `k`
    have hreaches : ∀ j ≤ k, Reaches s.world.dispatcher.ignoreFlushErrOnPendingCompletions
        (batch cfg env s.world) j := by
      intro j
      induction j with
      | zero => exact fun _ i c hi => absurd hi (Nat.not_lt_zero i)
      | succ j ih =>
        intro hj
        refine (reaches_iff (by omega) fun i p hi hp => ?_).mpr fun c hc =>
          hfront c (List.take_subset_take_left _ hj hc)
        refine hcounts i p hp fun i' c hi' => ih (by omega) i' c (by omega)
    exact hreaches k le_rfl
  · intro htimely k p hk hreaches
    obtain ⟨hlt, hget⟩ := List.getElem?_eq_some_iff.mp hk
    -- by strong induction every flush error up to `k` is ignored exactly if it is doomed
    have hall : ∀ j p, j ≤ k → (batch cfg env s.world)[j]? = some (p, .wrFlushErr) →
        (j < s.world.dispatcher.ignoreFlushErrOnPendingCompletions ↔ p ∈ s.doomed) := by
      intro j
      induction j using Nat.strong_induction_on with
      | _ j ih =>
        intro p hj hp
        obtain ⟨hjlt, hjget⟩ := List.getElem?_eq_some_iff.mp hp
        rw [← hinTime j p hjlt]
        have htime := htimely j hjlt (by rw [hjget]) ((reaches_iff hjlt.le
          (n := s.world.dispatcher.ignoreFlushErrOnPendingCompletions)
          fun i q hi => ih i hi q (by omega)).mp fun i c hi => hreaches i c (by omega))
        rwa [hjget] at htime
    exact hall k p le_rfl hk

end

/-- In every run the flush errors of the work requests posted to a failed node, and no
others, are ignored exactly if every flush error comes in time. -/
theorem flush_errors_ignored_iff (cfg : SendConfig) (envs : List DispatchEnv) :
    Lts.Along (step cfg) (IgnoresDoomed cfg) (init cfg) envs ↔
      Lts.Along (step cfg) (Timely cfg) (init cfg) envs :=
  Lts.along_congr (I := Counted cfg) (fun _ _ h => h.ignoresDoomed_iff_timely)
    (fun _ _ _ h hs => h.step hs) (init_counted cfg)

/-- Node 1 fails with one work request left.  It is flushed after one request to node 2 has
completed; the flush error of the other one is not ignored, node 2 having had no disconnect. -/
theorem flush_errors_ignored_interleaved :
    Lts.Along (step SendWorld.smallConfig) (IgnoresDoomed SendWorld.smallConfig)
      (init SendWorld.smallConfig)
      [SendWorld.sendTo 1 0 12 [⟨0, .success⟩], SendWorld.pollOnly [⟨1, .retryExcErr⟩],
        SendWorld.sendTo 2 0 8 [⟨3, .success⟩, ⟨2, .wrFlushErr⟩],
        SendWorld.pollOnly [⟨0, .wrFlushErr⟩]] :=
  (flush_errors_ignored_iff SendWorld.smallConfig _).mpr (by decide +kernel)

/-- Node 1 fails with one work request left; two to node 2 succeed before it is flushed. -/
def failsThenSends : List DispatchEnv :=
  [SendWorld.sendTo 1 0 12 [⟨0, .success⟩], SendWorld.pollOnly [⟨1, .retryExcErr⟩],
    SendWorld.sendTo 2 0 8 [⟨3, .success⟩, ⟨0, .success⟩]]

/-- The completions of node 2 use up the countdown, the flush error of node 1 is not ignored. -/
theorem countdown_used_up :
    ¬ Lts.Along (step SendWorld.smallConfig) (IgnoresDoomed SendWorld.smallConfig)
      (init SendWorld.smallConfig)
      (failsThenSends ++ [SendWorld.pollOnly [⟨2, .wrFlushErr⟩]]) := by
  intro halong
  have hmap : (Lts.exec (step SendWorld.smallConfig) (init SendWorld.smallConfig)
      failsThenSends).map (fun s => (s.world.outstanding.map fun p => p.wr.wrId,
        decide (s.world.outstanding = s.doomed), decide (0 < s.world.dispatcher.completionsPending),
        s.world.dispatcher.ignoreFlushErrOnPendingCompletions)) = some ([2], true, true, 0) := by
    decide +kernel
  obtain ⟨s, hs, hv⟩ := Option.map_eq_some_iff.mp hmap
  simp only [Prod.mk.injEq, decide_eq_true_eq] at hv
  obtain ⟨hids, hdoomed, hpending, hzero⟩ := hv
  obtain ⟨p, hp, hid⟩ := List.map_eq_singleton_iff.mp hids
  have hcovered : s.world.Covered SendWorld.smallConfig :=
    (Lts.exec_invariant (I := Counted SendWorld.smallConfig) (fun s env s' h hs => h.step hs)
      (init_counted _) hs).covered
  have hpolled : (s.world.beginDispatch.polled SendWorld.smallConfig
      (SendWorld.pollOnly [⟨2, .wrFlushErr⟩])).1 = [(p, .wrFlushErr)] := by
    change (pollOutstanding s.world.outstanding [⟨2, .wrFlushErr⟩]).1 = _
    rw [hp, pollOutstanding, List.find?_cons_of_pos (by simp [hid])]
    rfl
  have hk : (s.world.beginDispatch.polled SendWorld.smallConfig
      (SendWorld.pollOnly [⟨2, .wrFlushErr⟩])).1[0]? = some (p, .wrFlushErr) := by
    rw [hpolled]
    rfl
  have hignores := (Lts.along_cons.mp ((Lts.along_append.mp halong).2 s hs)).1
  have hdoomedIff := (hignores s.world.beginDispatch rfl hpending 0 p _ hk rfl).1
  have hcountdown := (ignored_iff hcovered.begin hk rfl).2
  have hmem : p ∈ s.doomed := by
    rw [← hdoomed, hp]
    exact List.mem_cons_self
  have hlt : 0 < s.world.dispatcher.ignoreFlushErrOnPendingCompletions :=
    hcountdown.mp (hdoomedIff.mpr hmem)
  omega

end FlushWorld

end Ibdxnet.Msgrc
