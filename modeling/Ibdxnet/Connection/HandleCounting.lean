import Ibdxnet.Connection.Handles

/-!
# The count of handles

From `CONNECTION_AVAILABLE` on `m_available` should count the handles issued
for a connection that is there and connected.  Below, it has to stay far enough
below for the increments of `GetConnection` calls that found no connection.

    0 ≤ m_available  →  m_available = handles, and the connection is connected
    m_available < 0  →  m_available ≤ CONNECTION_CLOSING + increments since

A step is `Careful` when no handle comes back after `m_available` was reset, no
handle is out when a connection is published, and no thread has still to read
the connection that is removed.  The count is right along runs of careful steps
(`handles_counted`).
-/

namespace Ibdxnet.Con

/-- The most increments of `m_available` by the thread that no handle stands for. -/
def ThreadPc.weight : ThreadPc → Nat
  | .add _ => 0
  | .resetFetch _ => 2
  | _ => 1

/-- The thread is about to return what it reads from `m_connections`. -/
def ThreadPc.Reading : ThreadPc → Prop
  | .returnAvailable | .returnWaited _ => True
  | .outside | .fetchAdd | .resetFetch _ | .loadState | .requestCreation | .triggerReExchange
  | .addJob | .load _ | .add _ | .check _ | .yielded _ | .retried | .giveUpCreation
  | .releaseTrigger | .nullPointer => False

instance : DecidablePred ThreadPc.Reading
  | .returnAvailable | .returnWaited _ => isTrue trivial
  | .outside | .fetchAdd | .resetFetch _ | .loadState | .requestCreation | .triggerReExchange
  | .addJob | .load _ | .add _ | .check _ | .yielded _ | .retried | .giveUpCreation
  | .releaseTrigger | .nullPointer => isFalse id

/-- The thread neither stands for a handle nor between the increment and the reset. -/
def ThreadPc.Plain : ThreadPc → Prop
  | .outside | .fetchAdd | .loadState | .requestCreation | .triggerReExchange | .addJob | .load _
  | .yielded _ | .retried | .giveUpCreation | .releaseTrigger => True
  | .returnAvailable | .resetFetch _ | .add _ | .check _ | .returnWaited _ | .nullPointer => False

theorem ThreadPc.Plain.spec {pc : ThreadPc} (h : pc.Plain) :
    pc.issued = 0 ∧ pc.weight = 1 ∧ ¬ pc.Reading ∧ pc ≠ .nullPointer := by
  cases pc <;> simp [ThreadPc.Plain, ThreadPc.issued, ThreadPc.weight, ThreadPc.Reading] at h ⊢

/-- The node is not available until this part of the job is over. -/
def JobPc.Busy : JobPc → Prop
  | .setConnection _ | .setCreated _ | .checkIdent _ | .publish | .wait _ | .readConnection
  | .removeConnection _ | .resetState | .setNotAvailable => True
  | .idle | .loadState | .allocate _ | .send | .learn _ | .complete _ | .exchange _ => False

/-- The job has found or made a connection. -/
def JobPc.Allocated : JobPc → Prop
  | .setCreated _ | .learn _ | .complete _ | .checkIdent _ | .publish => True
  | .idle | .loadState | .allocate _ | .setConnection _ | .send | .exchange _ | .wait _
  | .readConnection | .removeConnection _ | .resetState | .setNotAvailable => False

/-- The job has completed the connection. -/
def JobPc.Completed : JobPc → Prop
  | .checkIdent _ | .publish => True
  | .idle | .loadState | .allocate _ | .setConnection _ | .setCreated _ | .send | .learn _
  | .complete _ | .exchange _ | .wait _ | .readConnection | .removeConnection _ | .resetState
  | .setNotAvailable => False

namespace HandleWorld

variable {T : Type} [DecidableEq T] [Fintype T]

structure Counts (w : HandleWorld T) : Prop where
  lower : connectionNotAvailable ≤ w.state.available
  below : w.state.available < 0 →
    w.state.available ≤ connectionClosing + w.total ThreadPc.weight
  available : 0 ≤ w.state.available →
    w.connection ≠ none ∧ w.state.state = .connected ∧ w.state.available = w.handles
  busy : w.job.Busy → w.state.available < 0
  allocated : w.job.Allocated → w.connection ≠ none
  completed : w.job.Completed → w.state.state = .connected
  reading : ∀ t, (w.threads t).Reading → w.connection ≠ none
  returned : ∀ t, w.threads t ≠ .nullPointer

/-- No handle is out when the connection is published, and no thread has still
to read the connection that is removed. -/
def JobCareful (w : HandleWorld T) : JobPc → Prop
  | .publish => w.handles = 0
  | .removeConnection _ => ∀ t, ¬ (w.threads t).Reading
  | .idle | .loadState | .allocate _ | .setConnection _ | .setCreated _ | .send | .learn _
  | .complete _ | .checkIdent _ | .exchange _ | .wait _ | .readConnection | .resetState
  | .setNotAvailable => True

/-- The word does not overflow, no handle is returned into the reset word, and
the job thread is careful. -/
def Careful (w : HandleWorld T) (a : Action T) : Prop :=
  w.handles + 2 * Fintype.card T < 2 ^ 30 ∧
    match a with
    | .returnConnection _ => w.state.available ≠ connectionNotAvailable
    | .job _ => w.JobCareful w.job
    | .getConnection _ | .access _ | .retransmit _ | .waitOn _ | .timeOut _ | .addJob _ | .takeJob
    | .dropJob => True

instance (w : HandleWorld T) : DecidablePred w.JobCareful
  | .publish => inferInstanceAs (Decidable (w.handles = 0))
  | .removeConnection _ => inferInstanceAs (Decidable (∀ t, ¬ (w.threads t).Reading))
  | .idle | .loadState | .allocate _ | .setConnection _ | .setCreated _ | .send | .learn _
  | .complete _ | .checkIdent _ | .exchange _ | .wait _ | .readConnection | .resetState
  | .setNotAvailable => isTrue trivial

instance (w : HandleWorld T) : DecidablePred w.Careful
  | .returnConnection _ => inferInstanceAs (Decidable (_ ∧ w.state.available ≠ _))
  | .job _ => inferInstanceAs (Decidable (_ ∧ w.JobCareful w.job))
  | .getConnection _ | .access _ | .retransmit _ | .waitOn _ | .timeOut _ | .addJob _ | .takeJob
  | .dropJob => inferInstanceAs (Decidable (_ ∧ True))

variable {w w' : HandleWorld T} {t : T} {pc : ThreadPc} {created : Connection}

/-! ## Steps of a thread -/

omit [DecidableEq T] in
theorem total_weight_le (w : HandleWorld T) : w.total ThreadPc.weight ≤ 2 * Fintype.card T := by
  have hle : ∀ pc : ThreadPc, pc.weight ≤ 2 := by
    intro pc
    cases pc <;> simp [ThreadPc.weight]
  calc w.total ThreadPc.weight ≤ ∑ _t : T, 2 := Finset.sum_le_sum fun t _ => hle (w.threads t)
    _ = 2 * Fintype.card T := by simp [Nat.mul_comm]

/-- A thread goes on to `pc`; of the rest only the words of the state change,
and the handles given out. -/
structure Moves (t : T) (pc : ThreadPc) (w w' : HandleWorld T) : Prop where
  threads : w'.threads = Function.update w.threads t pc
  connection : w'.connection = w.connection
  job : w'.job = w.job
  connected : w.state.state = .connected → w'.state.state = .connected

theorem not_le_notAvailable : ¬ 0 ≤ connectionNotAvailable := by decide

theorem notAvailable_le_closing : connectionNotAvailable ≤ connectionClosing := by decide

theorem notAvailable_le_available : connectionNotAvailable ≤ connectionAvailable := by decide

theorem Counts.moves (h : w.Counts) (hmove : Moves t pc w w')
    (hlower : connectionNotAvailable ≤ w'.state.available)
    (hbelow : w'.state.available < 0 →
      w'.state.available ≤ connectionClosing + w'.total ThreadPc.weight)
    (havailable : 0 ≤ w'.state.available →
      0 ≤ w.state.available ∧ w'.state.available = w'.handles)
    (hreading : pc.Reading → w.connection ≠ none) (hreturned : pc ≠ .nullPointer) :
    w'.Counts where
  lower := hlower
  below := hbelow
  available hm := by
    obtain ⟨hm, hhandles⟩ := havailable hm
    obtain ⟨hconnection, hstate, -⟩ := h.available hm
    exact ⟨hmove.connection ▸ hconnection, hmove.connected hstate, hhandles⟩
  busy hjob := by
    have hm := h.busy (hmove.job ▸ hjob)
    by_contra hm'
    have := (havailable (by omega)).1
    omega
  allocated hjob := hmove.connection ▸ h.allocated (hmove.job ▸ hjob)
  completed hjob := hmove.connected (h.completed (hmove.job ▸ hjob))
  reading u hu := by
    rw [hmove.connection]
    rw [hmove.threads, Function.update_apply] at hu
    split at hu
    · exact hreading hu
    · exact h.reading u hu
  returned u := by
    rw [hmove.threads, Function.update_apply]
    split
    · exact hreturned
    · exact h.returned u

/-- A thread goes on, and leaves `m_available` as it is. -/
theorem Counts.goes (h : w.Counts) (hmove : Moves t pc w w')
    (havailable : w'.state.available = w.state.available)
    (hhandles : w'.held + pc.issued = w.held + (w.threads t).issued ∨ w.state.available < 0)
    (hweight : (w.threads t).weight ≤ pc.weight ∨ 0 ≤ w.state.available)
    (hreading : pc.Reading → w.connection ≠ none) (hreturned : pc ≠ .nullPointer) :
    w'.Counts := by
  have hissued := total_update ThreadPc.issued hmove.threads
  have hweights := total_update ThreadPc.weight hmove.threads
  refine h.moves hmove ?_ ?_ ?_ hreading hreturned
  · rw [havailable]
    exact h.lower
  · rw [havailable]
    intro hm
    have hbelow := h.below hm
    omega
  · rw [havailable]
    intro hm
    refine ⟨hm, ?_⟩
    have hcount := (h.available hm).2.2
    unfold handles at hcount ⊢
    omega

/-- A thread increments `m_available`. -/
theorem Counts.increments (h : w.Counts) (hmove : Moves t pc w w')
    (hfew : w.handles + 2 * Fintype.card T < 2 ^ 30)
    (havailable : w'.state.available = int32 (w.state.available + 1)) (hheld : w'.held = w.held)
    (hissued : 0 ≤ w.state.available → pc.issued = (w.threads t).issued + 1)
    (hweight : w.state.available < 0 → pc.weight = (w.threads t).weight + 1)
    (hreading : pc.Reading → w.connection ≠ none) (hreturned : pc ≠ .nullPointer) :
    w'.Counts := by
  have hissuedTotal := total_update ThreadPc.issued hmove.threads
  have hweights := total_update ThreadPc.weight hmove.threads
  have hle := total_weight_le w'
  have hlower := h.lower
  rcases lt_or_ge w.state.available 0 with hm | hm
  · have hbelow := h.below hm
    have hpc := hweight hm
    unfold connectionNotAvailable at hlower
    unfold connectionClosing at hbelow
    rw [int32_of_mem (by omega) (by omega)] at havailable
    refine h.moves hmove ?_ ?_ ?_ hreading hreturned
    · unfold connectionNotAvailable
      omega
    · unfold connectionClosing
      omega
    · omega
  · have hcount := (h.available hm).2.2
    have hpc := hissued hm
    unfold connectionNotAvailable at hlower
    rw [int32_of_mem (by omega) (by omega)] at havailable
    refine h.moves hmove ?_ ?_ ?_ hreading hreturned
    · unfold connectionNotAvailable
      omega
    · omega
    · intro _
      refine ⟨hm, ?_⟩
      unfold handles at hcount ⊢
      omega

/-- A thread goes on between two plain places. -/
theorem Counts.passes (h : w.Counts) (hmove : Moves t pc w w')
    (havailable : w'.state.available = w.state.available) (hheld : w'.held = w.held)
    (hfrom : (w.threads t).Plain) (hto : pc.Plain) : w'.Counts := by
  obtain ⟨hissued, hweight, -, -⟩ := hfrom.spec
  obtain ⟨hissued', hweight', hreading, hreturned⟩ := hto.spec
  exact h.goes hmove havailable (Or.inl (by omega)) (Or.inl (by omega))
    (fun hr => absurd hr hreading) hreturned

omit [Fintype T] in
theorem Moves.to (t : T) (pc : ThreadPc) (hthreads : w'.threads = Function.update w.threads t pc)
    (hconnection : w'.connection = w.connection) (hjob : w'.job = w.job)
    (hconnected : w.state.state = .connected → w'.state.state = .connected) : Moves t pc w w' :=
  ⟨hthreads, hconnection, hjob, hconnected⟩

omit [Fintype T] in
theorem Moves.goTo (w : HandleWorld T) (t : T) (pc : ThreadPc) : Moves t pc w (w.goTo t pc) :=
  ⟨rfl, rfl, rfl, id⟩

omit [Fintype T] in
theorem Moves.requestCreation (w : HandleWorld T) (t : T) (pc : ThreadPc) :
    Moves t pc w ({ w with state := w.state.requestCreation }.goTo t pc) :=
  ⟨rfl, rfl, rfl, fun hstate => by simp [ConnectionState.requestCreation, hstate]⟩

omit [Fintype T] in
theorem Moves.giveUpCreation (w : HandleWorld T) (t : T) (pc : ThreadPc) :
    Moves t pc w ({ w with state := w.state.giveUpCreation }.goTo t pc) :=
  ⟨rfl, rfl, rfl, fun hstate => by simp [ConnectionState.giveUpCreation, hstate]⟩

/-- The thread returns what it reads from `m_connections`. -/
theorem Counts.returnHandle (h : w.Counts) (hreading : (w.threads t).Reading)
    (hissued : (w.threads t).issued = 1) (hweight : (w.threads t).weight = 1) :
    (w.returnHandle t).Counts := by
  obtain ⟨c, hc⟩ := Option.ne_none_iff_exists'.mp (h.reading t hreading)
  unfold HandleWorld.returnHandle
  rw [hc]
  refine h.goes (.to t .outside rfl rfl rfl id) rfl (Or.inl ?_)
    (Or.inl (by rw [hweight]; rfl)) (fun hr => hr.elim) (by simp)
  rw [hissued]
  rfl

/-- The increment is a handle where the node was available, and one to take back elsewhere. -/
theorem Counts.fetchAdds (h : w.Counts) (hpc : w.threads t = .fetchAdd)
    (hfew : w.handles + 2 * Fintype.card T < 2 ^ 30) (hs : w.access t = some w') : w'.Counts := by
  unfold HandleWorld.access at hs
  simp only [hpc, Option.some.injEq] at hs
  subst hs
  split
  · next hm =>
    exact h.increments (t := t) ⟨rfl, rfl, rfl, id⟩ hfew rfl rfl
      (fun _ => by simp [hpc, ThreadPc.issued])
      (fun hm' => absurd hm (by unfold connectionAvailable; omega))
      (fun _ => (h.available hm).1) (by simp)
  · next hm =>
    exact h.increments (t := t) ⟨rfl, rfl, rfl, id⟩ hfew rfl rfl
      (fun hm' => absurd hm' (by unfold connectionAvailable at hm; omega))
      (fun _ => by simp [hpc, ThreadPc.weight]) (fun hr => hr.elim) (by simp)

/-- The compare exchange takes all increments back, or finds the node available, or is
tried again. -/
theorem Counts.resetsFetch (h : w.Counts) {available : Int}
    (hpc : w.threads t = .resetFetch available) (hs : w.access t = some w') : w'.Counts := by
  unfold HandleWorld.access at hs
  simp only [hpc] at hs
  split at hs
  · obtain rfl := Option.some.inj hs
    refine h.moves (.to t .loadState rfl rfl rfl id) le_rfl (fun _ => ?_)
      (fun hm => absurd hm not_le_notAvailable) (fun hr => hr.elim) (by simp)
    change connectionNotAvailable ≤ _
    unfold connectionNotAvailable connectionClosing
    omega
  · split at hs
    · next hm =>
      obtain rfl := Option.some.inj hs
      exact h.goes (.goTo w t _) rfl (Or.inl (by simp [hpc, ThreadPc.issued])) (Or.inr hm)
        (fun hr => hr.elim) (by simp)
    · obtain rfl := Option.some.inj hs
      exact h.goes (.goTo w t _) rfl (Or.inl (by simp [hpc, ThreadPc.issued]))
        (Or.inl (by simp [hpc, ThreadPc.weight])) (fun hr => hr.elim) (by simp)

/-- Behind the increment of the wait loop the connection is looked for once more. -/
theorem Counts.checks (h : w.Counts) {triggers : Bool} (hpc : w.threads t = .check triggers)
    (hs : w.access t = some w') : w'.Counts := by
  unfold HandleWorld.access at hs
  simp only [hpc, Option.some.injEq] at hs
  subst hs
  split
  · next hnone =>
    -- the count stays one too high, but nothing is available
    have hm : w.state.available < 0 := by
      by_contra hm
      exact (h.available (by omega)).1 hnone
    exact h.goes (.goTo w t _) rfl (Or.inr hm) (Or.inl (by simp [hpc, ThreadPc.weight]))
      (fun hr => hr.elim) (by simp)
  · next hsome =>
    exact h.goes (.goTo w t _) rfl (Or.inl (by simp [hpc, ThreadPc.issued]))
      (Or.inl (by simp [hpc, ThreadPc.weight])) (fun _ => hsome) (by simp)

theorem Counts.access (h : w.Counts) (hfew : w.handles + 2 * Fintype.card T < 2 ^ 30)
    (hs : w.access t = some w') : w'.Counts := by
  unfold HandleWorld.access at hs
  cases hpc : w.threads t with
  | outside | nullPointer | yielded | retried => simp [hpc] at hs
  | fetchAdd => exact h.fetchAdds hpc hfew hs
  | returnAvailable =>
    simp only [hpc, Option.some.injEq] at hs
    subst hs
    exact h.returnHandle (by rw [hpc]; trivial) (by rw [hpc]; rfl) (by rw [hpc]; rfl)
  | resetFetch available => exact h.resetsFetch hpc hs
  | loadState =>
    simp only [hpc, Option.some.injEq] at hs
    subst hs
    refine h.passes (.goTo w t _) rfl rfl (by rw [hpc]; trivial) ?_
    split <;> trivial
  | requestCreation =>
    simp only [hpc, Option.some.injEq] at hs
    subst hs
    exact h.passes (.requestCreation w t _) (ConnectionState.requestCreation_available _) rfl
      (by rw [hpc]; trivial) trivial
  | triggerReExchange =>
    simp only [hpc] at hs
    split at hs
    · obtain rfl := Option.some.inj hs
      exact h.passes (.to t .addJob rfl rfl rfl id) rfl rfl (by rw [hpc]; trivial)
        trivial
    · obtain rfl := Option.some.inj hs
      exact h.passes (.goTo w t _) rfl rfl (by rw [hpc]; trivial) trivial
  | addJob =>
    simp only [hpc, Option.some.injEq] at hs
    subst hs
    exact h.passes (.to t (.load true) rfl rfl rfl id) rfl rfl (by rw [hpc]; trivial)
      trivial
  | load triggers =>
    simp only [hpc, Option.some.injEq] at hs
    subst hs
    split
    · next hm =>
      exact h.goes (.goTo w t _) rfl (Or.inl (by simp [hpc, ThreadPc.issued])) (Or.inr hm)
        (fun hr => hr.elim) (by simp)
    · exact h.passes (.goTo w t _) rfl rfl (by rw [hpc]; trivial) trivial
  | add triggers =>
    simp only [hpc, Option.some.injEq] at hs
    subst hs
    exact h.increments (.to t (.check triggers) rfl rfl rfl id) hfew rfl rfl
      (fun _ => by simp [hpc, ThreadPc.issued]) (fun _ => by simp [hpc, ThreadPc.weight])
      (fun hr => hr.elim) (by simp)
  | check triggers => exact h.checks hpc hs
  | returnWaited triggers =>
    simp only [hpc, Option.some.injEq] at hs
    subst hs
    exact h.returnHandle (by rw [hpc]; trivial) (by rw [hpc]; rfl) (by rw [hpc]; rfl)
  | giveUpCreation =>
    simp only [hpc, Option.some.injEq] at hs
    subst hs
    exact h.passes (.giveUpCreation w t _) (ConnectionState.giveUpCreation_available _) rfl
      (by rw [hpc]; trivial) trivial
  | releaseTrigger =>
    simp only [hpc, Option.some.injEq] at hs
    subst hs
    exact h.passes (.to t .outside rfl rfl rfl id) rfl rfl (by rw [hpc]; trivial)
      trivial

theorem Counts.returnConnection (h : w.Counts) (hfew : w.handles < 2 ^ 30)
    (hreset : w.state.available ≠ connectionNotAvailable) (hs : w.returnConnection t = some w') :
    w'.Counts := by
  unfold HandleWorld.returnConnection at hs
  split at hs
  · next hpc =>
    obtain rfl := Option.some.inj hs
    have hlower := h.lower
    have hsame : w.threads = Function.update w.threads t .outside := by
      rw [← hpc.1, Function.update_eq_self]
    have havailable : int32 (w.state.available - 1) = w.state.available - 1 := by
      have hupper : w.state.available < 2 ^ 31 := by
        by_contra hm
        have hcount := (h.available (by omega)).2.2
        omega
      unfold connectionNotAvailable at hlower hreset
      exact int32_of_mem (by omega) (by omega)
    refine h.moves (.to t .outside hsame rfl rfl id) ?_ ?_ ?_
      (fun hr => hr.elim) (by simp)
    · change connectionNotAvailable ≤ int32 (w.state.available - 1)
      omega
    · change int32 (w.state.available - 1) < 0 → int32 (w.state.available - 1) ≤ _
      rw [havailable]
      intro hm
      change _ ≤ connectionClosing + (w.total ThreadPc.weight : Int)
      rcases lt_or_ge w.state.available 0 with hm' | hm'
      · have hbelow := h.below hm'
        omega
      · -- a handle is held, so the count is not zero
        have hcount := (h.available hm').2.2
        unfold handles at hcount
        omega
    · change 0 ≤ int32 (w.state.available - 1) → _ ∧ int32 (w.state.available - 1) = _
      rw [havailable]
      intro hm
      refine ⟨by omega, ?_⟩
      have hcount := (h.available (by omega)).2.2
      unfold handles at hcount ⊢
      change _ = ((w.held - 1 + w.total ThreadPc.issued : Nat) : Int)
      omega
  · cases hs

/-! ## Steps of the job thread -/

omit [DecidableEq T] in
/-- The job thread goes on: `m_available` stays, is published with no handle
out, or goes below. -/
theorem Counts.jobMoves (h : w.Counts) (hthreads : w'.threads = w.threads)
    (hheld : w'.held = w.held) (hlower : connectionNotAvailable ≤ w'.state.available)
    (hbelow : w'.state.available = w.state.available ∨ w'.state.available ≤ connectionClosing ∨
      w'.state.available = 0)
    (havailable : 0 ≤ w'.state.available →
      w'.connection ≠ none ∧ w'.state.state = .connected ∧ w'.state.available = w.handles)
    (hbusy : w'.job.Busy → w'.state.available < 0)
    (hallocated : w'.job.Allocated → w'.connection ≠ none)
    (hcompleted : w'.job.Completed → w'.state.state = .connected)
    (hreading : ∀ t, (w.threads t).Reading → w'.connection ≠ none) : w'.Counts where
  lower := hlower
  below hm := by
    rw [total_congr _ hthreads]
    rcases hbelow with hsame | hle | hzero
    · rw [hsame] at hm ⊢
      exact h.below hm
    · omega
    · omega
  available hm := by
    obtain ⟨hconnection, hstate, hhandles⟩ := havailable hm
    refine ⟨hconnection, hstate, ?_⟩
    rw [hhandles, handles, handles, hheld, total_congr _ hthreads]
  busy := hbusy
  allocated := hallocated
  completed := hcompleted
  reading t ht := hreading t (hthreads ▸ ht)
  returned t := hthreads ▸ h.returned t

omit [DecidableEq T] in
/-- The job thread goes on to `job`, and leaves the words as they are. -/
theorem Counts.jobGoes (h : w.Counts) {job : JobPc}
    (hbusy : job.Busy → w.state.available < 0)
    (hallocated : job.Allocated → w.connection ≠ none)
    (hcompleted : job.Completed → w.state.state = .connected) : Counts { w with job } :=
  h.jobMoves rfl rfl h.lower (Or.inl rfl) h.available hbusy hallocated hcompleted h.reading

theorem continue_spec (job : Allocation) : ¬ job.continue.Busy ∧
    ¬ job.continue.Completed := by
  cases job <;> exact ⟨id, id⟩

omit [DecidableEq T] in
/-- `__AllocateConnection` finds a connection, or none and no handle is out. -/
theorem Counts.allocates (h : w.Counts) {job : Allocation} (hjob : w.job = .allocate job)
    (hs : w.jobAccess created = some w') : w'.Counts := by
  unfold HandleWorld.jobAccess at hs
  simp only [hjob, Option.some.injEq] at hs
  subst hs
  split
  · next hnone =>
    refine h.jobGoes (fun _ => ?_) (fun ha => ha.elim) (fun hc => hc.elim)
    by_contra hm
    exact (h.available (by omega)).1 hnone
  · next hsome =>
    obtain ⟨hbusy, hcompleted⟩ := continue_spec job
    exact h.jobGoes (fun hb => absurd hb hbusy) (fun _ => hsome) (fun hc => absurd hc hcompleted)

omit [DecidableEq T] in
/-- The connect job keeps the connection. -/
theorem Counts.learns (h : w.Counts) {remote : ConnectionExchgData} (hjob : w.job = .learn remote)
    (hs : w.jobAccess created = some w') : w'.Counts := by
  unfold HandleWorld.jobAccess at hs
  simp only [hjob] at hs
  split at hs
  · cases hs
  split at hs
  · cases hs
  obtain rfl := Option.some.inj hs
  obtain ⟨c, hc⟩ := Option.ne_none_iff_exists'.mp (h.allocated (by rw [hjob]; trivial))
  have hsome : (Link.learn { state := w.state, connection := w.connection } remote).connection ≠
      none := by
    rw [Link.learn_connection (c := c) hc]
    simp
  exact h.jobMoves rfl rfl h.lower (Or.inl rfl)
    (fun hm => ⟨hsome, (h.available hm).2.1, (h.available hm).2.2⟩) (fun hb => hb.elim)
    (fun _ => hsome) (fun hc => hc.elim) (fun _ _ => hsome)

omit [DecidableEq T] in
/-- A connection that is completed was not available yet. -/
theorem Counts.completes (h : w.Counts) {remote : ConnectionExchgData}
    (hjob : w.job = .complete remote) (hs : w.jobAccess created = some w') : w'.Counts := by
  unfold HandleWorld.jobAccess at hs
  have hsome := h.allocated (by rw [hjob]; trivial)
  simp only [hjob] at hs
  split at hs
  · next hcompletes =>
    obtain rfl := Option.some.inj hs
    -- a connection that is only created is not available
    have hm : w.state.available < 0 := by
      by_contra hm
      have hstate := (h.available (by omega)).2.1
      rw [hcompletes.2] at hstate
      cases hstate
    exact h.jobMoves rfl rfl h.lower (Or.inl rfl) (fun hm' => absurd hm (not_lt.mpr hm'))
      (fun _ => hm) (fun _ => hsome) (fun _ => rfl) h.reading
  · split at hs <;> obtain rfl := Option.some.inj hs <;>
      exact h.jobGoes (fun hb => hb.elim) (fun ha => ha.elim) (fun hc => hc.elim)

omit [DecidableEq T] in
theorem Counts.checksIdent (h : w.Counts) {remote : ConnectionExchgData}
    (hjob : w.job = .checkIdent remote) (hs : w.jobAccess created = some w') : w'.Counts := by
  unfold HandleWorld.jobAccess at hs
  have hm : w.state.available < 0 := h.busy (by rw [hjob]; trivial)
  simp only [hjob] at hs
  split at hs
  · cases hs
  split at hs
  · obtain rfl := Option.some.inj hs
    exact h.jobMoves rfl rfl h.lower (Or.inl rfl) h.available (fun hb => hb.elim)
      (fun ha => ha.elim) (fun hc => hc.elim) h.reading
  · obtain rfl := Option.some.inj hs
    exact h.jobGoes (fun _ => hm) (fun _ => h.allocated (by rw [hjob]; trivial))
      (fun _ => h.completed (by rw [hjob]; trivial))

omit [DecidableEq T] in
/-- The connection is made available, with no handle out. -/
theorem Counts.publishes (h : w.Counts) (hjob : w.job = .publish) (hnone : w.handles = 0)
    (hs : w.jobAccess created = some w') : w'.Counts := by
  unfold HandleWorld.jobAccess at hs
  simp only [hjob, Option.some.injEq] at hs
  subst hs
  exact h.jobMoves rfl rfl notAvailable_le_available (Or.inr (Or.inr rfl))
    (fun _ => ⟨h.allocated (by rw [hjob]; trivial), h.completed (by rw [hjob]; trivial),
      by rw [hnone]; rfl⟩)
    (fun hb => hb.elim) (fun ha => ha.elim) (fun hc => hc.elim) h.reading

omit [DecidableEq T] in
/-- The close job takes the node off the available ones. -/
theorem Counts.exchanges (h : w.Counts) {force : Bool} (hjob : w.job = .exchange force)
    (hs : w.jobAccess created = some w') : w'.Counts := by
  unfold HandleWorld.jobAccess at hs
  simp only [hjob, Option.some.injEq] at hs
  subst hs
  have hclosing : connectionClosing < 0 := by decide
  refine h.jobMoves rfl rfl notAvailable_le_closing (Or.inr (Or.inl le_rfl))
    (fun hm => absurd hclosing (not_lt.mpr hm)) (fun _ => hclosing) ?_ ?_ h.reading
  · split <;> exact fun ha => ha.elim
  · split <;> exact fun hc => hc.elim

omit [DecidableEq T] in
/-- The connection goes while nobody is reading it. -/
theorem Counts.removesConnection (h : w.Counts) {connection : Option Connection}
    (hjob : w.job = .removeConnection connection) (hread : ∀ t, ¬ (w.threads t).Reading)
    (hs : w.jobAccess created = some w') : w'.Counts := by
  unfold HandleWorld.jobAccess at hs
  have hm : w.state.available < 0 := h.busy (by rw [hjob]; trivial)
  simp only [hjob, Option.some.injEq] at hs
  subst hs
  refine h.jobMoves rfl rfl h.lower (Or.inl rfl) (fun hm' => absurd hm (not_lt.mpr hm'))
    (fun _ => hm) ?_ ?_ (fun t ht => absurd ht (hread t))
  · split <;> exact fun ha => ha.elim
  · split <;> exact fun hc => hc.elim

omit [DecidableEq T] in
theorem Counts.jobAccess (h : w.Counts) (hcareful : w.Careful (.job created))
    (hs : w.jobAccess created = some w') : w'.Counts := by
  obtain ⟨-, hcareful⟩ := hcareful
  unfold HandleWorld.jobAccess at hs
  cases hjob : w.job with
  | idle =>
    simp [hjob] at hs
  | loadState =>
    simp only [hjob, Option.some.injEq] at hs
    subst hs
    split <;> exact h.jobGoes (fun hb => hb.elim) (fun ha => ha.elim) (fun hc => hc.elim)
  | allocate job => exact h.allocates hjob hs
  | setConnection job =>
    simp only [hjob, Option.some.injEq] at hs
    subst hs
    have hm : w.state.available < 0 := h.busy (by rw [hjob]; trivial)
    exact h.jobMoves rfl rfl h.lower (Or.inl rfl) (fun hm' => absurd hm (not_lt.mpr hm'))
      (fun _ => hm) (fun _ => by simp) (fun hc => hc.elim) (fun _ _ => by simp)
  | setCreated job =>
    simp only [hjob, Option.some.injEq] at hs
    subst hs
    have hm : w.state.available < 0 := h.busy (by rw [hjob]; trivial)
    obtain ⟨hbusy, hcompleted⟩ := continue_spec job
    exact h.jobMoves rfl rfl h.lower (Or.inl rfl) (fun hm' => absurd hm (not_lt.mpr hm'))
      (fun hb => absurd hb hbusy) (fun _ => h.allocated (by rw [hjob]; trivial))
      (fun hc => absurd hc hcompleted) h.reading
  | send =>
    simp only [hjob] at hs
    split at hs
    · cases hs
    · obtain rfl := Option.some.inj hs
      exact h.jobGoes (fun hb => hb.elim) (fun ha => ha.elim) (fun hc => hc.elim)
  | learn remote => exact h.learns hjob hs
  | complete remote => exact h.completes hjob hs
  | checkIdent remote => exact h.checksIdent hjob hs
  | publish =>
    have hnone : w.handles = 0 := by
      simpa only [hjob, JobCareful] using hcareful
    exact h.publishes hjob hnone hs
  | exchange force => exact h.exchanges hjob hs
  | wait counter =>
    have hm : w.state.available < 0 := h.busy (by rw [hjob]; trivial)
    simp only [hjob, Option.some.injEq] at hs
    subst hs
    split <;> exact h.jobGoes (fun _ => hm) (fun ha => ha.elim) (fun hc => hc.elim)
  | readConnection =>
    have hm : w.state.available < 0 := h.busy (by rw [hjob]; trivial)
    simp only [hjob, Option.some.injEq] at hs
    subst hs
    exact h.jobGoes (fun _ => hm) (fun ha => ha.elim) (fun hc => hc.elim)
  | removeConnection connection =>
    have hread : ∀ t, ¬ (w.threads t).Reading := by
      simpa only [hjob, JobCareful] using hcareful
    exact h.removesConnection hjob hread hs
  | resetState =>
    have hm : w.state.available < 0 := h.busy (by rw [hjob]; trivial)
    simp only [hjob, Option.some.injEq] at hs
    subst hs
    exact h.jobMoves rfl rfl h.lower (Or.inl rfl) (fun hm' => absurd hm (not_lt.mpr hm'))
      (fun _ => hm) (fun ha => ha.elim) (fun hc => hc.elim) h.reading
  | setNotAvailable =>
    simp only [hjob, Option.some.injEq] at hs
    subst hs
    exact h.jobMoves rfl rfl le_rfl (Or.inr (Or.inl notAvailable_le_closing))
      (fun hm => absurd hm not_le_notAvailable) (fun hb => hb.elim) (fun ha => ha.elim)
      (fun hc => hc.elim) h.reading

theorem Counts.step (h : w.Counts) {a : Action T} (hcareful : w.Careful a)
    (hs : step w a = some w') : w'.Counts := by
  have hfew := hcareful.1
  cases a with
  | getConnection t =>
    simp only [HandleWorld.step] at hs
    split at hs
    · next hpc =>
      obtain rfl := Option.some.inj hs
      exact h.passes (.goTo w t _) rfl rfl (by rw [hpc]; trivial) trivial
    · cases hs
  | returnConnection t => exact h.returnConnection (by omega) hcareful.2 hs
  | access t => exact h.access hfew hs
  | retransmit t =>
    simp only [HandleWorld.step, HandleWorld.retransmit] at hs
    split at hs
    · next hpc =>
      obtain rfl := Option.some.inj hs
      exact h.passes (.to t .retried rfl rfl rfl id) rfl rfl
        (by rw [hpc.1]; trivial) trivial
    · cases hs
  | waitOn t =>
    simp only [HandleWorld.step, HandleWorld.waitOn] at hs
    split at hs
    · next hpc =>
      obtain rfl := Option.some.inj hs
      exact h.passes (.goTo w t _) rfl rfl (by rw [hpc]; trivial) trivial
    · next hpc =>
      obtain rfl := Option.some.inj hs
      exact h.passes (.goTo w t _) rfl rfl (by rw [hpc]; trivial) trivial
    · cases hs
  | timeOut t =>
    simp only [HandleWorld.step, HandleWorld.timeOut] at hs
    split at hs
    · next hpc =>
      obtain rfl := Option.some.inj hs
      refine h.passes (.goTo w t _) rfl rfl (by rw [hpc]; trivial) ?_
      split <;> trivial
    · next hpc =>
      obtain rfl := Option.some.inj hs
      exact h.passes (.goTo w t _) rfl rfl (by rw [hpc]; trivial) trivial
    · cases hs
  | addJob job =>
    obtain rfl := Option.some.inj hs
    exact h.jobMoves rfl rfl h.lower (Or.inl rfl) h.available h.busy h.allocated h.completed
      h.reading
  | takeJob =>
    simp only [HandleWorld.step, HandleWorld.takeJob] at hs
    split at hs
    · next job jobQueue _ _ =>
      obtain rfl := Option.some.inj hs
      refine h.jobMoves rfl rfl h.lower (Or.inl rfl) h.available ?_ ?_ ?_ h.reading
      all_goals cases job <;> exact fun hjob => hjob.elim
    · cases hs
  | dropJob =>
    simp only [HandleWorld.step, HandleWorld.dropJob] at hs
    split at hs
    · obtain rfl := Option.some.inj hs
      exact h.jobMoves rfl rfl h.lower (Or.inl rfl) h.available h.busy h.allocated h.completed
        h.reading
    · obtain rfl := Option.some.inj hs
      exact h.jobMoves rfl rfl h.lower (Or.inl rfl) h.available h.busy h.allocated h.completed
        h.reading
    · cases hs
  | job created => exact h.jobAccess hcareful hs

/-! ## Runs -/

omit [DecidableEq T] in
theorem counts_new : ({} : HandleWorld T).Counts where
  lower := le_rfl
  below _ := by
    change connectionNotAvailable ≤ _
    unfold connectionNotAvailable connectionClosing
    omega
  available hm := absurd hm not_le_notAvailable
  busy hb := hb.elim
  allocated ha := ha.elim
  completed hc := hc.elim
  reading _ hr := hr.elim
  returned _ := by simp

/-- In every state of a run of careful steps, an available node has a connection
that is connected, `m_available` is the number of handles issued, and no
`GetConnection` has returned a null pointer. -/
theorem handles_counted {as : List (Action T)} (hcareful : Lts.Along step Careful {} as)
    (h : Lts.exec step {} as = some w) :
    (w.state.isAvailable = true →
      (∃ c, w.connection = some c) ∧ w.state.state = .connected ∧
        w.state.available = w.handles) ∧
      ∀ t, w.threads t ≠ .nullPointer := by
  have hcounts : w.Counts :=
    Lts.exec_invariant_along (fun _ _ _ hi hc hs => hi.step hc hs) counts_new hcareful h
  refine ⟨fun havailable => ?_, hcounts.returned⟩
  obtain ⟨hconnection, hstate, hcount⟩ := hcounts.available (of_decide_eq_true havailable)
  exact ⟨Option.ne_none_iff_exists'.mp hconnection, hstate, hcount⟩

/-! ### Two threads -/

def exampleConnected : Connection where
  connectionId := 0
  ibPhysicalQPId := 7
  ibPsn := 8

/-- The remote is connected to the current instance, and knows that it is connected. -/
def exampleComplete : ConnectionExchgData where
  header := { nodeId := 2, exchgFlags := 3, exchgFlagsRemote := 3, lid := 2, conManIdent := 0x22 }
  data := { physicalQPId := 9, psn := 10 }

/-- A connect job creates and completes the connection, and a thread gets a handle. -/
def exampleOpened : List (Action (Fin 2)) :=
  [.addJob (.connect exampleComplete), .takeJob] ++
    List.replicate 7 (.job exampleConnected) ++ [.getConnection 0, .access 0, .access 0]

/-- A close job runs to its end while the handle is out, which is returned then:
the word wraps around, the node looks available without a connection, and the
next `GetConnection` returns a null pointer. -/
theorem handle_returned_late :
    ∃ w, Lts.exec step {} (exampleOpened ++ [.addJob (.close true), .takeJob] ++
        List.replicate 5 (.job exampleConnected) ++ [.returnConnection 0]) = some w ∧
      w.state.isAvailable = true ∧ w.state.available = 2147483647 ∧ w.handles = 0 ∧
      w.connection = none ∧
      ∃ w', Lts.exec step w [.getConnection 1, .access 1, .access 1] = some w' ∧
        w'.threads 1 = .nullPointer := by
  have hreturned : (Lts.exec step {} (exampleOpened ++ [.addJob (.close true), .takeJob] ++
      List.replicate 5 (.job exampleConnected) ++ [.returnConnection 0])).map
        (fun w => (w.state.isAvailable, w.state.available, w.handles, w.connection,
          (Lts.exec step w [.getConnection 1, .access 1, .access 1]).map fun w' => w'.threads 1)) =
      some (true, 2147483647, 0, none, some .nullPointer) := by
    decide +kernel
  obtain ⟨w, hw, h⟩ := Option.map_eq_some_iff.mp hreturned
  simp only [Prod.mk.injEq] at h
  obtain ⟨havailable, hcount, hhandles, hnone, hnext⟩ := h
  obtain ⟨w', hw', hpc⟩ := Option.map_eq_some_iff.mp hnext
  exact ⟨w, hw, havailable, hcount, hhandles, hnone, w', hw', hpc⟩

theorem handles_counted_opened :
    ∃ w : HandleWorld (Fin 2), Lts.exec step {} exampleOpened = some w ∧
      w.state.isAvailable = true ∧ w.state.state = .connected ∧ w.handles = 1 ∧
      w.state.available = w.handles := by
  have hrun : (Lts.exec step {} exampleOpened).map
      (fun w => (w.state.isAvailable, w.handles)) = some (true, 1) := by
    decide +kernel
  obtain ⟨w, hw, h⟩ := Option.map_eq_some_iff.mp hrun
  rw [Prod.mk.injEq] at h
  have hcounted := (handles_counted (by decide +kernel) hw).1 h.1
  exact ⟨w, hw, h.1, hcounted.2.1, h.2, hcounted.2.2⟩

end HandleWorld

end Ibdxnet.Con
