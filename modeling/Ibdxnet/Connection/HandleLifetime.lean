import Ibdxnet.Connection.GracefulClose

/-!
# How long a handle is good

A handle is a pointer to the connection, which a close job deletes.  Nothing but
`m_available` keeps the two apart: below `CONNECTION_AVAILABLE` no `GetConnection`
gives out a handle, and a close job that does not force waits for those that are
out.  So long as

    a close job that forces finds no handle out, one that waits an available node
    while it waits, no reset of an increment ends the loop       (ResetGoesOn)
    the increment of the wait loop is not too late               (AddsInTime)

every handle is good until it is returned         (connection_outlives_handles)
An increment that is too late leaves a dangling handle         (handle_dangles)
-/

namespace Ibdxnet.Con

namespace HandleWorld

variable {T : Type} [DecidableEq T] [Fintype T]

/-- A thread that loaded `m_available` in the wait loop increments it while the
node is still available, or while the close job waits. -/
def AddsInTime (w : HandleWorld T) : ThreadPc → Prop
  | .add _ => 0 ≤ w.state.available ∨ w.job.Waits
  | _ => True

def Orderly (w : HandleWorld T) (a : Action T) : Prop :=
  w.handles + 2 * Fintype.card T < 2 ^ 30 ∧
    match a with
    | .job _ => (w.job = .exchange true → w.handles = 0) ∧
      (w.job = .exchange false → 0 ≤ w.state.available)
    | .access t => w.AddsInTime (w.threads t) ∧ (w.job.Waits → w.ResetGoesOn (w.threads t))
    | .getConnection _ | .returnConnection _ | .retransmit _ | .waitOn _ | .timeOut _ | .addJob _
    | .takeJob | .dropJob => True

instance (w : HandleWorld T) (pc : ThreadPc) : Decidable (w.AddsInTime pc) := by
  unfold AddsInTime
  split <;> infer_instance

instance (w : HandleWorld T) : DecidablePred w.Orderly
  | .job _ => inferInstanceAs (Decidable (_ ∧ (_ → _) ∧ (_ → _)))
  | .access _ => inferInstanceAs (Decidable (_ ∧ w.AddsInTime _ ∧ (_ → w.ResetGoesOn _)))
  | .getConnection _ | .returnConnection _ | .retransmit _ | .waitOn _ | .timeOut _ | .addJob _
  | .takeJob | .dropJob => inferInstanceAs (Decidable (_ ∧ True))

/-- What a reset expects is below. -/
def ResetsBelow : ThreadPc → Prop
  | .resetFetch available => available < 0
  | _ => True

structure Guarded (w : HandleWorld T) : Prop where
  counts : w.Counts
  drains : w.Drains
  counter : ∀ counter, w.job = .wait counter → 0 ≤ counter ∧ counter < 2 ^ 30
  resets : ∀ t, ResetsBelow (w.threads t)
  /-- handles are out only while the node is available or the close job waits -/
  unavailable : w.state.available < 0 → ¬ w.job.Waits → w.handles = 0

variable {w w' : HandleWorld T} {t : T} {pc : ThreadPc} {counter : Int}

omit [DecidableEq T] in
/-- Without a connection no handle is out. -/
theorem Guarded.handles_eq_zero (h : w.Guarded) (hnone : w.connection = none) : w.handles = 0 := by
  apply h.unavailable
  · by_contra hm
    exact (h.counts.available (by omega)).1 hnone
  · intro hwaits
    cases hjob : w.job with
    | wait counter => exact (h.drains counter hjob).connection hnone
    | _ => simp [hjob, JobPc.Waits] at hwaits

omit [DecidableEq T] in
theorem not_reading_of_handles (hhandles : w.handles = 0) (t : T) : ¬ (w.threads t).Reading := by
  intro hreading
  have hle : (w.threads t).issued ≤ w.total ThreadPc.issued :=
    Finset.single_le_sum (f := fun u => (w.threads u).issued) (fun _ _ => Nat.zero_le _)
      (Finset.mem_univ t)
  have hissued : (w.threads t).issued = 1 := by
    cases hpc : w.threads t <;> simp [hpc, ThreadPc.Reading, ThreadPc.issued] at hreading ⊢
  unfold handles at hhandles
  omega

omit [DecidableEq T] in
theorem total_resetting_le (w : HandleWorld T) :
    w.total ThreadPc.resetting ≤ 2 * Fintype.card T := by
  refine le_trans (Finset.sum_le_sum fun t _ => ?_) (total_weight_le w)
  cases w.threads t <;> simp [ThreadPc.resetting, ThreadPc.weight]

/-! ## Orderly steps are careful and graceful -/

omit [DecidableEq T] in
/-- While the close job waits the word stays above `CONNECTION_NOT_AVAILABLE`. -/
theorem Guarded.above_notAvailable (h : w.Guarded) (hwaits : w.job.Waits)
    (hfew : w.handles + 2 * Fintype.card T < 2 ^ 30) :
    w.state.available ≠ connectionNotAvailable := by
  cases hjob : w.job with
  | wait counter =>
    obtain ⟨-, resets, hresets, hword⟩ := h.drains counter hjob
    obtain ⟨hcounter, hcounter'⟩ := h.counter counter hjob
    have hle := total_resetting_le w
    rw [hword]
    unfold connectionClosing connectionNotAvailable
    rw [int32_of_mem (by omega) (by omega)]
    omega
  | _ => simp [hjob, JobPc.Waits] at hwaits

theorem Guarded.careful (h : w.Guarded) {a : Action T} (horderly : w.Orderly a)
    (hs : step w a = some w') : w.Careful a := by
  refine ⟨horderly.1, ?_⟩
  cases a with
  | returnConnection t =>
    by_cases hwaits : w.job.Waits
    · exact h.above_notAvailable hwaits horderly.1
    · intro hm
      have hzero := h.unavailable (by rw [hm]; decide) hwaits
      simp only [HandleWorld.step, HandleWorld.returnConnection, Option.ite_none_right_eq_some]
        at hs
      have hheld := hs.1.2
      unfold handles at hzero
      omega
  | job created =>
    show w.JobCareful w.job
    cases hjob : w.job with
    | publish =>
      exact h.unavailable (h.counts.busy (by rw [hjob]; trivial)) (by rw [hjob]; exact id)
    | removeConnection connection =>
      exact not_reading_of_handles
        (h.unavailable (h.counts.busy (by rw [hjob]; trivial)) (by rw [hjob]; exact id))
    | _ => trivial
  | getConnection | access | retransmit | waitOn | timeOut | addJob | takeJob | dropJob => trivial

omit [DecidableEq T] in
theorem Guarded.graceful (h : w.Guarded) {a : Action T} (horderly : w.Orderly a) :
    w.Graceful a := by
  cases a with
  | job created =>
    intro hjob
    obtain ⟨hconnection, -, hcount⟩ := h.counts.available (horderly.2.2 hjob)
    exact ⟨hconnection, hcount⟩
  | access t => exact horderly.2.2
  | getConnection | returnConnection | retransmit | waitOn | timeOut | addJob | takeJob
  | dropJob => trivial

/-! ## Steps of a thread -/

/-- A step of a thread gives out a handle of an available node only, unless the
close job waits. -/
structure Settles (t : T) (pc : ThreadPc) (w w' : HandleWorld T) : Prop extends
    Moves t pc w w' where
  resets : ResetsBelow pc
  unavailable : w'.state.available < 0 → ¬ w.job.Waits →
    w.state.available < 0 ∧ w'.held + pc.issued ≤ w.held + (w.threads t).issued

omit [Fintype T] in
theorem Settles.keeps (hmove : Moves t pc w w')
    (havailable : w'.state.available = w.state.available)
    (hissued : w'.held + pc.issued ≤ w.held + (w.threads t).issued)
    (hresets : ResetsBelow pc) : Settles t pc w w' :=
  ⟨hmove, hresets, fun hm _ => ⟨havailable ▸ hm, hissued⟩⟩

omit [Fintype T] in
theorem Settles.returnHandle (hissued : (w.threads t).issued = 1) :
    ∃ pc, Settles t pc w (w.returnHandle t) := by
  unfold HandleWorld.returnHandle
  split
  · refine ⟨.outside, .keeps (.to t .outside rfl rfl rfl id) rfl ?_ trivial⟩
    rw [hissued]
    rfl
  · refine ⟨.nullPointer, .keeps (.goTo w t _) rfl ?_ trivial⟩
    rw [hissued]
    exact Nat.le_succ _

omit [DecidableEq T] in
/-- The word of an available node counts handles, and does not overflow. -/
theorem Guarded.increment_nonneg (h : w.Guarded) (hfew : w.handles + 2 * Fintype.card T < 2 ^ 30)
    (hm : 0 ≤ w.state.available) : 0 ≤ int32 (w.state.available + 1) := by
  have hcount := (h.counts.available hm).2.2
  rw [int32_of_mem (by omega) (by omega)]
  omega

theorem Guarded.settles (h : w.Guarded) (horderly : w.Orderly (.access t))
    (hs : w.access t = some w') : ∃ pc, Settles t pc w w' := by
  obtain ⟨hfew, hadds, -⟩ := horderly
  unfold HandleWorld.access at hs
  cases hpc : w.threads t with
  | outside | nullPointer | yielded | retried => simp [hpc] at hs
  | fetchAdd =>
    simp only [hpc, Option.some.injEq] at hs
    subst hs
    split
    · next hm =>
      refine ⟨_, .to t .returnAvailable rfl rfl rfl id, trivial, fun hm' _ => ?_⟩
      exact absurd (h.increment_nonneg hfew hm) (not_le.mpr hm')
    · next hm =>
      refine ⟨_, .to t (.resetFetch _) rfl rfl rfl id, not_le.mp hm, fun _ _ => ?_⟩
      exact ⟨not_le.mp hm, by rw [hpc]; rfl⟩
  | returnAvailable | returnWaited =>
    simp only [hpc, Option.some.injEq] at hs
    subst hs
    exact Settles.returnHandle (by rw [hpc]; rfl)
  | resetFetch available =>
    have hbelow := h.resets t
    simp only [hpc] at hs hbelow
    split at hs
    · next heq =>
      obtain rfl := Option.some.inj hs
      refine ⟨_, .to t .loadState rfl rfl rfl id, trivial, fun _ _ => ⟨?_, ?_⟩⟩
      · rw [heq]
        exact hbelow
      · rw [hpc]
        rfl
    · split at hs
      · obtain rfl := Option.some.inj hs
        exact ⟨_, .keeps (.goTo w t _) rfl (by rw [hpc]; rfl) trivial⟩
      · next hm =>
        obtain rfl := Option.some.inj hs
        exact ⟨_, .keeps (.goTo w t _) rfl (by rw [hpc]; rfl) (not_le.mp hm)⟩
  | loadState =>
    simp only [hpc, Option.some.injEq] at hs
    subst hs
    split <;> exact ⟨_, .keeps (.goTo w t _) rfl (by rw [hpc]; rfl) trivial⟩
  | requestCreation =>
    simp only [hpc, Option.some.injEq] at hs
    subst hs
    exact ⟨_, .keeps (.requestCreation w t _) (ConnectionState.requestCreation_available _)
      (by rw [hpc]; rfl) trivial⟩
  | triggerReExchange =>
    simp only [hpc] at hs
    split at hs
    · obtain rfl := Option.some.inj hs
      exact ⟨_, .keeps (.to t .addJob rfl rfl rfl id) rfl (by rw [hpc]; rfl) trivial⟩
    · obtain rfl := Option.some.inj hs
      exact ⟨_, .keeps (.goTo w t _) rfl (by rw [hpc]; rfl) trivial⟩
  | addJob =>
    simp only [hpc, Option.some.injEq] at hs
    subst hs
    exact ⟨_, .keeps (.to t (.load true) rfl rfl rfl id) rfl (by rw [hpc]; rfl) trivial⟩
  | load triggers =>
    simp only [hpc, Option.some.injEq] at hs
    subst hs
    split <;> exact ⟨_, .keeps (.goTo w t _) rfl (by rw [hpc]; rfl) trivial⟩
  | add triggers =>
    simp only [hpc, Option.some.injEq, AddsInTime] at hs hadds
    subst hs
    refine ⟨_, .to t (.check triggers) rfl rfl rfl id, trivial, fun hm' hwaits => ?_⟩
    have hm := hadds.resolve_right hwaits
    exact absurd (h.increment_nonneg hfew hm) (not_le.mpr hm')
  | check triggers =>
    simp only [hpc, Option.some.injEq] at hs
    subst hs
    split
    · exact ⟨_, .keeps (.goTo w t _) rfl (by rw [hpc]; exact Nat.le_succ _) trivial⟩
    · exact ⟨_, .keeps (.goTo w t _) rfl (by rw [hpc]; rfl) trivial⟩
  | giveUpCreation =>
    simp only [hpc, Option.some.injEq] at hs
    subst hs
    exact ⟨_, .keeps (.giveUpCreation w t _) (ConnectionState.giveUpCreation_available _)
      (by rw [hpc]; rfl) trivial⟩
  | releaseTrigger =>
    simp only [hpc, Option.some.injEq] at hs
    subst hs
    exact ⟨_, .keeps (.to t .outside rfl rfl rfl id) rfl (by rw [hpc]; rfl) trivial⟩

theorem Guarded.settles_returnConnection (h : w.Guarded)
    (hfew : w.handles + 2 * Fintype.card T < 2 ^ 30) (hs : w.returnConnection t = some w') :
    Settles t .outside w w' := by
  unfold HandleWorld.returnConnection at hs
  obtain ⟨⟨hpc, hheld⟩, hs⟩ := Option.ite_none_right_eq_some.mp hs
  obtain rfl := Option.some.inj hs
  have hsame : w.threads = Function.update w.threads t .outside := by
    rw [← hpc, Function.update_eq_self]
  refine ⟨.to t .outside hsame rfl rfl id, trivial, fun hm' _ => ⟨?_, ?_⟩⟩
  · by_contra hm
    have hcount := (h.counts.available (by omega)).2.2
    replace hm' : int32 (w.state.available - 1) < 0 := hm'
    unfold handles at hcount hfew
    rw [int32_of_mem (by omega) (by omega)] at hm'
    omega
  · rw [hpc]
    show w.held - 1 + 0 ≤ w.held + 0
    omega

theorem Guarded.settled (h : w.Guarded) (hsettles : Settles t pc w w') (hcounts : w'.Counts)
    (hdrains : w'.Drains) : w'.Guarded where
  counts := hcounts
  drains := hdrains
  counter counter hjob := h.counter counter (hsettles.job ▸ hjob)
  resets u := by
    rw [hsettles.threads, Function.update_apply]
    split
    · exact hsettles.resets
    · exact h.resets u
  unavailable hm hwaits := by
    rw [hsettles.job] at hwaits
    obtain ⟨hm, hle⟩ := hsettles.unavailable hm hwaits
    have hzero := h.unavailable hm hwaits
    have hissued := total_update ThreadPc.issued hsettles.threads
    unfold handles at hzero ⊢
    omega

/-! ## Steps of the job thread -/

omit [DecidableEq T] in
theorem Guarded.jobMoves (h : w.Guarded) (hthreads : w'.threads = w.threads)
    (hheld : w'.held = w.held)
    (hcounter : ∀ counter, w'.job = .wait counter → 0 ≤ counter ∧ counter < 2 ^ 30)
    (hunavailable : w'.state.available < 0 → ¬ w'.job.Waits → w.handles = 0)
    (hcounts : w'.Counts) (hdrains : w'.Drains) : w'.Guarded where
  counts := hcounts
  drains := hdrains
  counter := hcounter
  resets := hthreads ▸ h.resets
  unavailable hm hwaits := by
    rw [handles, hheld, total_congr _ hthreads]
    exact hunavailable hm hwaits

omit [DecidableEq T] [Fintype T] in
/-- What the job thread does to `m_available`. -/
theorem available_of_jobAccess {created : Connection} (hs : w.jobAccess created = some w') :
    w'.state.available = w.state.available ∨ w.job = .publish ∧ w'.state.available = 0 ∨
      (∃ force, w.job = .exchange force ∧ (force = false → w'.job.Waits)) ∨
      w.job = .setNotAvailable := by
  unfold HandleWorld.jobAccess at hs
  cases hjob : w.job with
  | idle => simp [hjob] at hs
  | publish =>
    simp only [hjob, Option.some.injEq] at hs
    subst hs
    exact Or.inr (Or.inl ⟨rfl, rfl⟩)
  | exchange force =>
    simp only [hjob, Option.some.injEq] at hs
    subst hs
    refine Or.inr (Or.inr (Or.inl ⟨force, rfl, ?_⟩))
    rintro rfl
    trivial
  | setNotAvailable => exact Or.inr (Or.inr (Or.inr rfl))
  | loadState | allocate | setConnection | setCreated | wait | readConnection | removeConnection
  | resetState =>
    simp only [hjob, Option.some.injEq] at hs
    subst hs
    exact Or.inl rfl
  | send =>
    simp only [hjob] at hs
    split at hs
    · cases hs
    · obtain rfl := Option.some.inj hs
      exact Or.inl rfl
  | learn remote =>
    simp only [hjob] at hs
    split at hs
    · cases hs
    · split at hs
      · cases hs
      · obtain rfl := Option.some.inj hs
        exact Or.inl rfl
  | complete remote =>
    simp only [hjob] at hs
    split at hs
    · obtain rfl := Option.some.inj hs
      exact Or.inl rfl
    · split at hs <;> obtain rfl := Option.some.inj hs <;> exact Or.inl rfl
  | checkIdent remote =>
    simp only [hjob] at hs
    split at hs
    · cases hs
    · split at hs <;> obtain rfl := Option.some.inj hs <;> exact Or.inl rfl

omit [DecidableEq T] in
/-- The wait is over only when all handles are returned. -/
theorem Guarded.handles_of_wait (h : w.Guarded) (hfew : w.handles + 2 * Fintype.card T < 2 ^ 30)
    (hjob : w.job = .wait counter)
    (hover : int32 (connectionClosing - counter) = w.state.available) : w.handles = 0 := by
  obtain ⟨-, resets, hresets, hword⟩ := h.drains counter hjob
  have hle := total_resetting_le w
  rw [hword] at hover
  unfold int32 at hover
  omega

omit [DecidableEq T] in
theorem Guarded.jobAccess (h : w.Guarded) {created : Connection}
    (horderly : w.Orderly (.job created)) (hs : w.jobAccess created = some w')
    (hcounts : w'.Counts) (hdrains : w'.Drains) : w'.Guarded := by
  obtain ⟨hfew, hforced, hwaiting⟩ := horderly
  obtain ⟨hthreads, hheld, -⟩ := jobAccess_frame hs
  refine h.jobMoves hthreads hheld ?_ ?_ hcounts hdrains
  · intro counter hjob'
    rcases wait_of_jobAccess hs hjob' with ⟨hjob, -⟩ | ⟨hjob, rfl, -⟩
    · exact h.counter counter hjob
    · have hm := hwaiting hjob
      have hcount := (h.counts.available hm).2.2
      omega
  · intro hm hwaits
    rcases available_of_jobAccess hs with hsame | ⟨-, hzero⟩ | ⟨force, hjob, hforce⟩ | hjob
    · rw [hsame] at hm
      by_cases hwaited : w.job.Waits
      · cases hjob : w.job with
        | wait counter =>
          simp only [HandleWorld.jobAccess, hjob, Option.some.injEq] at hs
          subst hs
          by_cases hover : int32 (connectionClosing - counter) = w.state.available
          · exact h.handles_of_wait hfew hjob hover
          · rw [if_neg hover] at hwaits
            exact absurd trivial hwaits
        | _ => simp [hjob, JobPc.Waits] at hwaited
      · exact h.unavailable hm hwaited
    · omega
    · cases force with
      | true => exact hforced hjob
      | false => exact absurd (hforce rfl) hwaits
    · exact h.unavailable (h.counts.busy (by rw [hjob]; trivial)) (by rw [hjob]; exact id)

/-! ## Runs -/

omit [DecidableEq T] in
theorem guarded_new : ({} : HandleWorld T).Guarded where
  counts := counts_new
  drains counter hjob := by cases hjob
  counter counter hjob := by cases hjob
  resets t := trivial
  unavailable _ _ := by
    unfold handles
    exact Nat.add_eq_zero_iff.mpr ⟨rfl, Finset.sum_eq_zero fun _ _ => rfl⟩

theorem Guarded.step (h : w.Guarded) {a : Action T} (horderly : w.Orderly a)
    (hs : step w a = some w') : w'.Guarded := by
  have hcounts : w'.Counts := h.counts.step (h.careful horderly hs) hs
  have hdrains : w'.Drains := h.drains.step (h.graceful horderly) hs
  cases a with
  | access t =>
    obtain ⟨pc, hsettles⟩ := h.settles horderly hs
    exact h.settled hsettles hcounts hdrains
  | returnConnection t =>
    exact h.settled (h.settles_returnConnection horderly.1 hs) hcounts hdrains
  | job created => exact h.jobAccess horderly hs hcounts hdrains
  | getConnection t =>
    simp only [HandleWorld.step, Option.ite_none_right_eq_some] at hs
    obtain ⟨hpc, hs⟩ := hs
    obtain rfl := Option.some.inj hs
    exact h.settled (.keeps (.goTo w t _) rfl (by rw [hpc]; rfl) trivial) hcounts hdrains
  | retransmit t =>
    simp only [HandleWorld.step, HandleWorld.retransmit, Option.ite_none_right_eq_some] at hs
    obtain ⟨⟨hpc, -⟩, hs⟩ := hs
    obtain rfl := Option.some.inj hs
    exact h.settled (.keeps (.to t .retried rfl rfl rfl id) rfl (by rw [hpc]; rfl) trivial) hcounts
      hdrains
  | waitOn t =>
    simp only [HandleWorld.step, HandleWorld.waitOn] at hs
    split at hs
    · next hpc =>
      obtain rfl := Option.some.inj hs
      exact h.settled (.keeps (.goTo w t _) rfl (by rw [hpc]; rfl) trivial) hcounts hdrains
    · next hpc =>
      obtain rfl := Option.some.inj hs
      exact h.settled (.keeps (.goTo w t _) rfl (by rw [hpc]; rfl) trivial) hcounts hdrains
    · cases hs
  | timeOut t =>
    simp only [HandleWorld.step, HandleWorld.timeOut] at hs
    split at hs
    · next triggers hpc =>
      obtain rfl := Option.some.inj hs
      cases triggers <;>
        exact h.settled (.keeps (.goTo w t _) rfl (by rw [hpc]; rfl) trivial) hcounts hdrains
    · next hpc =>
      obtain rfl := Option.some.inj hs
      exact h.settled (.keeps (.goTo w t _) rfl (by rw [hpc]; rfl) trivial) hcounts hdrains
    · cases hs
  | addJob job =>
    obtain rfl := Option.some.inj hs
    exact h.jobMoves rfl rfl h.counter h.unavailable hcounts hdrains
  | takeJob =>
    simp only [HandleWorld.step, HandleWorld.takeJob] at hs
    split at hs
    · next job jobQueue hjob _ =>
      obtain rfl := Option.some.inj hs
      refine h.jobMoves rfl rfl ?_ (fun hm _ => ?_) hcounts hdrains
      · intro counter hstart
        cases job <;> cases hstart
      · exact h.unavailable hm (by rw [hjob]; exact id)
    · cases hs
  | dropJob =>
    simp only [HandleWorld.step, HandleWorld.dropJob] at hs
    split at hs
    · obtain rfl := Option.some.inj hs
      exact h.jobMoves rfl rfl h.counter h.unavailable hcounts hdrains
    · obtain rfl := Option.some.inj hs
      exact h.jobMoves rfl rfl h.counter h.unavailable hcounts hdrains
    · cases hs

theorem guarded_of_exec {as : List (Action T)} (horderly : Lts.Along step Orderly {} as)
    (h : Lts.exec step {} as = some w) : w.Guarded :=
  Lts.exec_invariant_along (fun _ _ _ hi ho hs => hi.step ho hs) guarded_new horderly h

/-! ## The connection of the handles -/

/-- The id of the connection that handles point to. -/
def connectionId? (w : HandleWorld T) : Option ConnectionId :=
  w.connection.map Connection.connectionId

omit [DecidableEq T] [Fintype T] in
/-- The job thread replaces or removes a connection in these places only. -/
theorem connectionId_of_jobAccess {created : Connection} (hs : w.jobAccess created = some w') :
    w'.connectionId? = w.connectionId? ∨ (∃ job, w.job = .setConnection job) ∨
      ∃ connection, w.job = .removeConnection connection := by
  unfold HandleWorld.jobAccess at hs
  cases hjob : w.job with
  | idle => simp [hjob] at hs
  | setConnection job => exact Or.inr (Or.inl ⟨job, rfl⟩)
  | removeConnection connection => exact Or.inr (Or.inr ⟨connection, rfl⟩)
  | loadState | allocate | setCreated | publish | exchange | wait | readConnection | resetState
  | setNotAvailable =>
    simp only [hjob, Option.some.injEq] at hs
    subst hs
    exact Or.inl rfl
  | send =>
    simp only [hjob] at hs
    split at hs
    · cases hs
    · obtain rfl := Option.some.inj hs
      exact Or.inl rfl
  | learn remote =>
    simp only [hjob] at hs
    split at hs
    · cases hs
    · split at hs
      · cases hs
      · obtain rfl := Option.some.inj hs
        left
        show (if _ then _ else _ : Option Connection).map Connection.connectionId = _
        split
        · rfl
        · unfold connectionId?
          cases w.connection <;> rfl
  | complete remote =>
    simp only [hjob] at hs
    split at hs
    · obtain rfl := Option.some.inj hs
      exact Or.inl rfl
    · split at hs <;> obtain rfl := Option.some.inj hs <;> exact Or.inl rfl
  | checkIdent remote =>
    simp only [hjob] at hs
    split at hs
    · cases hs
    · split at hs <;> obtain rfl := Option.some.inj hs <;> exact Or.inl rfl

theorem Guarded.connectionId_of_step (h : w.Guarded) {a : Action T} (horderly : w.Orderly a)
    (hs : HandleWorld.step w a = some w') :
    w'.connectionId? = w.connectionId? ∨ w.handles = 0 := by
  have hsame : w'.connection = w.connection → w'.connectionId? = w.connectionId? ∨ w.handles = 0 :=
    fun hconnection => Or.inl (congrArg (Option.map Connection.connectionId) hconnection)
  cases a with
  | access t =>
    obtain ⟨pc, hsettles⟩ := h.settles horderly hs
    exact hsame hsettles.connection
  | returnConnection t => exact hsame (h.settles_returnConnection horderly.1 hs).connection
  | job created =>
    rcases connectionId_of_jobAccess hs with heq | ⟨job, hjob⟩ | ⟨connection, hjob⟩
    · exact Or.inl heq
    all_goals
      right
      exact h.unavailable (h.counts.busy (by rw [hjob]; trivial)) (by rw [hjob]; exact id)
  | getConnection t =>
    simp only [HandleWorld.step, Option.ite_none_right_eq_some] at hs
    exact Option.some.inj hs.2 ▸ Or.inl rfl
  | retransmit t =>
    simp only [HandleWorld.step, HandleWorld.retransmit, Option.ite_none_right_eq_some] at hs
    exact Option.some.inj hs.2 ▸ Or.inl rfl
  | waitOn t =>
    simp only [HandleWorld.step, HandleWorld.waitOn] at hs
    split at hs
    · exact Option.some.inj hs ▸ Or.inl rfl
    · exact Option.some.inj hs ▸ Or.inl rfl
    · cases hs
  | timeOut t =>
    simp only [HandleWorld.step, HandleWorld.timeOut] at hs
    split at hs
    · exact Option.some.inj hs ▸ Or.inl rfl
    · exact Option.some.inj hs ▸ Or.inl rfl
    · cases hs
  | addJob job => exact Option.some.inj hs ▸ Or.inl rfl
  | takeJob =>
    simp only [HandleWorld.step, HandleWorld.takeJob] at hs
    split at hs
    · exact Option.some.inj hs ▸ Or.inl rfl
    · cases hs
  | dropJob =>
    simp only [HandleWorld.step, HandleWorld.dropJob] at hs
    split at hs
    · exact Option.some.inj hs ▸ Or.inl rfl
    · exact Option.some.inj hs ▸ Or.inl rfl
    · cases hs

/-- **A handle is good until it is returned**: as long as handles are out, the
connection is the one it was when they came out, whatever the threads and the job
thread do; when there is none, none is out; and no `GetConnection` returns a null
pointer. -/
theorem connection_outlives_handles {as bs : List (Action T)}
    (horderly : Lts.Along step Orderly {} as) (h : Lts.exec step {} as = some w)
    (hout : Lts.Along step (fun w a => w.Orderly a ∧ 0 < w.handles) w bs)
    (h' : Lts.exec step w bs = some w') :
    w'.connectionId? = w.connectionId? ∧ (w'.connection = none → w'.handles = 0) ∧
      ∀ t, w'.threads t ≠ .nullPointer := by
  have hkept : w'.Guarded ∧ w'.connectionId? = w.connectionId? := by
    refine Lts.exec_invariant_along
      (I := fun u : HandleWorld T => u.Guarded ∧ u.connectionId? = w.connectionId?)
      (fun u a u' hi hp hs => ⟨hi.1.step hp.1 hs, ?_⟩) ⟨guarded_of_exec horderly h, rfl⟩ hout h'
    rcases hi.1.connectionId_of_step hp.1 hs with heq | hzero
    · exact heq.trans hi.2
    · exact absurd hzero hp.2.ne'
  obtain ⟨hguarded, hid⟩ := hkept
  exact ⟨hid, hguarded.handles_eq_zero, hguarded.counts.returned⟩

/-! ### A close job while a handle is out -/

/-- The close job waits, and a second thread that finds the node closing is still
in its reset. -/
def exampleClosing : List (Action (Fin 2)) :=
  let second : Fin 2 := ⟨1, Nat.one_lt_two⟩
  [.addJob (.close false), .takeJob, .job exampleConnected, .getConnection second,
    .access second, .access second, .job exampleConnected]

theorem connection_outlives_handles_closing :
    ∃ w w' : HandleWorld (Fin 2), Lts.exec step {} exampleOpened = some w ∧
      Lts.exec step w exampleClosing = some w' ∧ w'.job = .wait 1 ∧
      w'.connectionId? = w.connectionId? := by
  have hrun : (Lts.exec step {} exampleOpened).map (fun w =>
      (decide (Lts.Along step (fun w a => w.Orderly a ∧ 0 < w.handles) w exampleClosing),
        (Lts.exec step w exampleClosing).map HandleWorld.job)) = some (true, some (.wait 1)) := by
    decide +kernel
  obtain ⟨w, hw, hclosing⟩ := Option.map_eq_some_iff.mp hrun
  rw [Prod.mk.injEq, decide_eq_true_eq, Option.map_eq_some_iff] at hclosing
  obtain ⟨hout, w', hw', hjob⟩ := hclosing
  exact ⟨w, w', hw, hw', hjob, (connection_outlives_handles (by decide +kernel) hw hout hw').1⟩

/-- A thread has seen the node available in the wait loop when the close job comes,
and increments the word after the job has stopped waiting. -/
def exampleLate : List (Action (Fin 1)) :=
  let late : Fin 1 := ⟨0, Nat.one_pos⟩
  .getConnection late :: List.replicate 7 (.access late) ++ [.takeJob] ++
    List.replicate 5 (.job exampleConnected) ++ [.addJob (.connect exampleComplete), .takeJob] ++
    List.replicate 5 (.job exampleConnected) ++
    [.access late, .addJob (.close false), .takeJob, .job exampleConnected,
      .job exampleConnected, .access late, .access late, .access late, .job exampleConnected,
      .job exampleConnected]

/-- It is given a handle, and the connection is deleted. -/
theorem handle_dangles :
    ∃ w, Lts.Along step Careful {} exampleLate ∧ Lts.Along step Graceful {} exampleLate ∧
      Lts.exec step {} exampleLate = some w ∧ w.held = 1 ∧ w.connection = none := by
  have hrun : (Lts.exec step {} exampleLate).map (fun w => (w.held, w.connection)) =
      some (1, none) := by
    decide +kernel
  obtain ⟨w, hw, h⟩ := Option.map_eq_some_iff.mp hrun
  obtain ⟨hheld, hnone⟩ := Prod.mk.inj h
  exact ⟨w, by decide +kernel, by decide +kernel, hw, hheld, hnone⟩

end HandleWorld

end Ibdxnet.Con
