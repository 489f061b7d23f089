import Ibdxnet.Connection.HandleCounting

/-!
# The wait of a close job

A close job that does not force swaps `CONNECTION_CLOSING` into `m_available`
and waits until the word is `CONNECTION_CLOSING - counter`, where `counter` is
what it swapped out.  That value comes up when the handles are returned, if
`counter` was their number and nothing but increments and decrements changes the
word meanwhile: the reset of a `GetConnection` that finds no connection does.

    m_available = CONNECTION_CLOSING - counter + handles + increments not reset
-/

namespace Ibdxnet.Con

/-- One for a thread between its increment and its reset of `m_available`. -/
def ThreadPc.resetting : ThreadPc → Nat
  | .resetFetch _ => 1
  | _ => 0

/-- The close job waits for handles to be returned. -/
def JobPc.Waits (job : JobPc) : Prop :=
  match job with
  | .wait _ => True
  | _ => False

instance : DecidablePred JobPc.Waits := fun job => by
  unfold JobPc.Waits
  split <;> infer_instance

theorem int32_add (x y : Int) : int32 (int32 x + y) = int32 (x + y) := by
  unfold int32
  omega

namespace HandleWorld

variable {T : Type} [DecidableEq T] [Fintype T]

/-- The compare exchange of a thread that resets its increment does not end the loop. -/
def ResetGoesOn (w : HandleWorld T) : ThreadPc → Prop
  | .resetFetch available =>
    w.state.available ≠ available ∧ w.state.available < connectionAvailable
  | _ => True

/-- A close job that does not force finds a connection, and the number of its
handles in `m_available`.  While it waits, no compare exchange of a
`GetConnection` that resets its increment ends the loop. -/
def Graceful (w : HandleWorld T) : Action T → Prop
  | .job _ =>
    w.job = .exchange false → w.connection ≠ none ∧ w.state.available = w.handles
  | .access t => w.job.Waits → w.ResetGoesOn (w.threads t)
  | .getConnection _ | .returnConnection _ | .retransmit _ | .waitOn _ | .timeOut _ | .addJob _
  | .takeJob | .dropJob => True

instance (w : HandleWorld T) (pc : ThreadPc) : Decidable (w.ResetGoesOn pc) := by
  unfold ResetGoesOn
  split <;> infer_instance

instance (w : HandleWorld T) : DecidablePred w.Graceful
  | .job _ =>
    inferInstanceAs (Decidable (w.job = .exchange false →
      w.connection ≠ none ∧ w.state.available = w.handles))
  | .access t => inferInstanceAs (Decidable (w.job.Waits → w.ResetGoesOn (w.threads t)))
  | .getConnection _ | .returnConnection _ | .retransmit _ | .waitOn _ | .timeOut _ | .addJob _
  | .takeJob | .dropJob => isTrue trivial

/-- What the word is while the close job waits. -/
structure Draining (counter : Int) (w : HandleWorld T) : Prop where
  connection : w.connection ≠ none
  available : ∃ resets, resets ≤ w.total ThreadPc.resetting ∧
    w.state.available = int32 (connectionClosing - counter + w.handles + resets)

/-- Whenever a close job waits. -/
def Drains (w : HandleWorld T) : Prop := ∀ counter, w.job = .wait counter → w.Draining counter

variable {w w' : HandleWorld T} {t : T} {pc : ThreadPc} {counter : Int}

/-! ## Steps of a thread -/

/-- A thread goes on; what it adds to the word, it adds to the handles and to
the increments that are not reset. -/
theorem Draining.moves (h : w.Draining counter) (hmove : Moves t pc w w') (delta : Nat)
    (havailable : w'.state.available = int32 (w.state.available + delta))
    (hdelta : w'.held + pc.issued + pc.resetting =
      w.held + (w.threads t).issued + (w.threads t).resetting + delta)
    (hresetting : (w.threads t).resetting ≤ pc.resetting) : w'.Draining counter := by
  have hissued := total_update ThreadPc.issued hmove.threads
  have hresets := total_update ThreadPc.resetting hmove.threads
  obtain ⟨resets, hle, hword⟩ := h.available
  refine ⟨hmove.connection ▸ h.connection,
    resets + (pc.resetting - (w.threads t).resetting), by omega, ?_⟩
  rw [havailable, hword, int32_add]
  congr 1
  unfold handles
  omega

theorem Draining.goes (h : w.Draining counter) (hmove : Moves t pc w w')
    (havailable : w'.state.available = w.state.available)
    (hhandles : w'.held + pc.issued = w.held + (w.threads t).issued)
    (hresetting : (w.threads t).resetting = pc.resetting) : w'.Draining counter := by
  refine h.moves hmove 0 ?_ (by omega) hresetting.le
  obtain ⟨resets, -, hword⟩ := h.available
  rw [havailable, hword, int32_add, Nat.cast_zero, add_zero]

theorem Draining.returnHandle (h : w.Draining counter) (hissued : (w.threads t).issued = 1)
    (hresetting : (w.threads t).resetting = 0) : (w.returnHandle t).Draining counter := by
  obtain ⟨c, hc⟩ := Option.ne_none_iff_exists'.mp h.connection
  unfold HandleWorld.returnHandle
  rw [hc]
  refine h.goes (.to t .outside rfl rfl rfl id) rfl ?_ hresetting
  rw [hissued]
  rfl

theorem Draining.access (h : w.Draining counter) (hjob : w.job = .wait counter)
    (hgraceful : w.Graceful (.access t)) (hs : w.access t = some w') : w'.Draining counter := by
  replace hgraceful : w.ResetGoesOn (w.threads t) := hgraceful (by rw [hjob]; trivial)
  unfold HandleWorld.access at hs
  cases hpc : w.threads t with
  | outside | nullPointer | yielded | retried => simp [hpc] at hs
  | fetchAdd =>
    simp only [hpc, Option.some.injEq] at hs
    subst hs
    split
    · exact h.moves (.to t .returnAvailable rfl rfl rfl id) 1 rfl
        (by rw [hpc]; rfl)
        (by rw [hpc]; simp [ThreadPc.resetting])
    · exact h.moves (.to t (.resetFetch _) rfl rfl rfl id) 1 rfl
        (by rw [hpc]; rfl)
        (by rw [hpc]; simp [ThreadPc.resetting])
  | returnAvailable =>
    simp only [hpc, Option.some.injEq] at hs
    subst hs
    exact h.returnHandle (by rw [hpc]; rfl) (by rw [hpc]; rfl)
  | resetFetch available =>
    simp only [hpc, ResetGoesOn] at hgraceful hs
    rw [if_neg hgraceful.1, if_neg (not_le.mpr hgraceful.2)] at hs
    obtain rfl := Option.some.inj hs
    exact h.goes (.goTo w t _) rfl (by rw [hpc]; rfl) (by rw [hpc]; rfl)
  | loadState =>
    simp only [hpc, Option.some.injEq] at hs
    subst hs
    split <;> exact h.goes (.goTo w t _) rfl (by rw [hpc]; rfl) (by rw [hpc]; rfl)
  | requestCreation =>
    simp only [hpc, Option.some.injEq] at hs
    subst hs
    exact h.goes (.requestCreation w t _) (ConnectionState.requestCreation_available _)
      (by rw [hpc]; rfl) (by rw [hpc]; rfl)
  | triggerReExchange =>
    simp only [hpc] at hs
    split at hs
    · obtain rfl := Option.some.inj hs
      exact h.goes (.to t .addJob rfl rfl rfl id) rfl (by rw [hpc]; rfl) (by rw [hpc]; rfl)
    · obtain rfl := Option.some.inj hs
      exact h.goes (.goTo w t _) rfl (by rw [hpc]; rfl) (by rw [hpc]; rfl)
  | addJob =>
    simp only [hpc, Option.some.injEq] at hs
    subst hs
    exact h.goes (.to t (.load true) rfl rfl rfl id) rfl (by rw [hpc]; rfl) (by rw [hpc]; rfl)
  | load triggers =>
    simp only [hpc, Option.some.injEq] at hs
    subst hs
    split <;> exact h.goes (.goTo w t _) rfl (by rw [hpc]; rfl) (by rw [hpc]; rfl)
  | add triggers =>
    simp only [hpc, Option.some.injEq] at hs
    subst hs
    exact h.moves (.to t (.check triggers) rfl rfl rfl id) 1 rfl
        (by rw [hpc]; rfl)
        (by rw [hpc]; simp [ThreadPc.resetting])
  | check triggers =>
    simp only [hpc, h.connection, if_false, Option.some.injEq] at hs
    subst hs
    exact h.goes (.goTo w t _) rfl (by rw [hpc]; rfl) (by rw [hpc]; rfl)
  | returnWaited triggers =>
    simp only [hpc, Option.some.injEq] at hs
    subst hs
    exact h.returnHandle (by rw [hpc]; rfl) (by rw [hpc]; rfl)
  | giveUpCreation =>
    simp only [hpc, Option.some.injEq] at hs
    subst hs
    exact h.goes (.giveUpCreation w t _) (ConnectionState.giveUpCreation_available _)
      (by rw [hpc]; rfl) (by rw [hpc]; rfl)
  | releaseTrigger =>
    simp only [hpc, Option.some.injEq] at hs
    subst hs
    exact h.goes (.to t .outside rfl rfl rfl id) rfl (by rw [hpc]; rfl) (by rw [hpc]; rfl)

omit [DecidableEq T] in
theorem Draining.returnConnection (h : w.Draining counter)
    (hs : w.returnConnection t = some w') : w'.Draining counter := by
  unfold HandleWorld.returnConnection at hs
  split at hs
  · next hpc =>
    obtain rfl := Option.some.inj hs
    obtain ⟨resets, hle, hword⟩ := h.available
    refine ⟨h.connection, resets, hle, ?_⟩
    change int32 (w.state.available - 1) =
      int32 (_ - counter + (w.held - 1 + w.total ThreadPc.issued : Nat) + _)
    rw [hword, sub_eq_add_neg, int32_add]
    congr 1
    unfold handles
    omega
  · cases hs

/-! ## Steps of the job thread -/

omit [DecidableEq T] [Fintype T] in
/-- Only the exchange of a close job and its wait lead to the wait. -/
theorem wait_of_jobAccess {created : Connection} (hs : w.jobAccess created = some w')
    (hjob' : w'.job = .wait counter) :
    w.job = .wait counter ∧ w'.state = w.state ∧ w'.connection = w.connection ∨
      w.job = .exchange false ∧ counter = w.state.available ∧
        w'.state.available = connectionClosing ∧ w'.connection = w.connection := by
  have hcontinue : ∀ job : Allocation, job.continue ≠ .wait counter := by
    intro job
    cases job <;> simp [Allocation.continue]
  unfold HandleWorld.jobAccess at hs
  cases hjob : w.job with
  | idle => simp [hjob] at hs
  | wait counter' =>
    simp only [hjob, Option.some.injEq] at hs
    subst hs
    simp only at hjob'
    split at hjob'
    · cases hjob'
    · obtain rfl := JobPc.wait.inj hjob'
      exact Or.inl ⟨rfl, rfl, rfl⟩
  | exchange force =>
    simp only [hjob, Option.some.injEq] at hs
    subst hs
    cases force with
    | true => cases hjob'
    | false => exact Or.inr ⟨rfl, (JobPc.wait.inj hjob').symm, rfl, rfl⟩
  | allocate job =>
    simp only [hjob, Option.some.injEq] at hs
    subst hs
    simp only at hjob'
    split at hjob'
    · cases hjob'
    · exact absurd hjob' (hcontinue job)
  | setCreated job =>
    simp only [hjob, Option.some.injEq] at hs
    subst hs
    exact absurd hjob' (hcontinue job)
  | setConnection | publish | readConnection | resetState | setNotAvailable =>
    simp only [hjob, Option.some.injEq] at hs
    subst hs
    cases hjob'
  | loadState | removeConnection =>
    simp only [hjob, Option.some.injEq] at hs
    subst hs
    simp only at hjob'
    split at hjob' <;> cases hjob'
  | send =>
    simp only [hjob] at hs
    split at hs
    · cases hs
    · obtain rfl := Option.some.inj hs
      cases hjob'
  | learn remote =>
    simp only [hjob] at hs
    split at hs
    · cases hs
    · split at hs
      · cases hs
      · obtain rfl := Option.some.inj hs
        cases hjob'
  | complete remote =>
    simp only [hjob] at hs
    split at hs
    · obtain rfl := Option.some.inj hs
      cases hjob'
    · split at hs <;> obtain rfl := Option.some.inj hs <;> cases hjob'
  | checkIdent remote =>
    simp only [hjob] at hs
    split at hs
    · cases hs
    · split at hs <;> obtain rfl := Option.some.inj hs <;> cases hjob'

omit [DecidableEq T] in
theorem Drains.jobAccess (h : w.Drains) {created : Connection}
    (hgraceful : w.Graceful (.job created)) (hs : w.jobAccess created = some w') : w'.Drains := by
  intro counter hjob'
  obtain ⟨hthreads, hheld, -⟩ := jobAccess_frame hs
  have hhandles : w'.handles = w.handles := by
    rw [handles, handles, hheld, total_congr _ hthreads]
  rcases wait_of_jobAccess hs hjob' with
    ⟨hjob, hstate, hconnection⟩ | ⟨hjob, hcounter, hclosing, hconnection⟩
  · obtain ⟨hsome, resets, hle, hword⟩ := h counter hjob
    refine ⟨hconnection ▸ hsome, resets, ?_, ?_⟩
    · rwa [total_congr _ hthreads]
    · rw [hstate, hhandles, hword]
  · obtain ⟨hsome, hcount⟩ := hgraceful hjob
    refine ⟨hconnection ▸ hsome, 0, Nat.zero_le _, ?_⟩
    -- the number of handles was swapped out, so they cancel
    rw [hclosing, hhandles, hcounter, hcount, sub_add_cancel]
    rfl

/-! ## Runs -/

theorem Drains.step (h : w.Drains) {a : Action T} (hgraceful : w.Graceful a)
    (hs : step w a = some w') : w'.Drains := by
  cases a with
  | job created => exact h.jobAccess hgraceful hs
  | access t =>
    intro counter hjob'
    have hjob : w.job = .wait counter := (access_job hs).symm.trans hjob'
    exact (h counter hjob).access hjob hgraceful hs
  | returnConnection t =>
    intro counter hjob'
    have hjob : w.job = .wait counter := by
      simp only [HandleWorld.step, HandleWorld.returnConnection] at hs
      split at hs
      · obtain rfl := Option.some.inj hs
        exact hjob'
      · cases hs
    exact (h counter hjob).returnConnection hs
  | getConnection t =>
    simp only [HandleWorld.step] at hs
    split at hs
    · next hpc =>
      obtain rfl := Option.some.inj hs
      exact fun counter hjob =>
        (h counter hjob).goes (.goTo w t _) rfl (by rw [hpc]; rfl) (by rw [hpc]; rfl)
    · cases hs
  | retransmit t =>
    simp only [HandleWorld.step, HandleWorld.retransmit] at hs
    split at hs
    · next hpc =>
      obtain rfl := Option.some.inj hs
      exact fun counter hjob => (h counter hjob).goes (.to t .retried rfl rfl rfl id) rfl
        (by rw [hpc.1]; rfl) (by rw [hpc.1]; rfl)
    · cases hs
  | waitOn t =>
    simp only [HandleWorld.step, HandleWorld.waitOn] at hs
    split at hs
    · next hpc =>
      obtain rfl := Option.some.inj hs
      exact fun counter hjob =>
        (h counter hjob).goes (.goTo w t _) rfl (by rw [hpc]; rfl) (by rw [hpc]; rfl)
    · next hpc =>
      obtain rfl := Option.some.inj hs
      exact fun counter hjob =>
        (h counter hjob).goes (.goTo w t _) rfl (by rw [hpc]; rfl) (by rw [hpc]; rfl)
    · cases hs
  | timeOut t =>
    simp only [HandleWorld.step, HandleWorld.timeOut] at hs
    split at hs
    · next hpc =>
      obtain rfl := Option.some.inj hs
      intro counter hjob
      split <;>
        exact (h counter hjob).goes (.goTo w t _) rfl (by rw [hpc]; rfl) (by rw [hpc]; rfl)
    · next hpc =>
      obtain rfl := Option.some.inj hs
      exact fun counter hjob =>
        (h counter hjob).goes (.goTo w t _) rfl (by rw [hpc]; rfl) (by rw [hpc]; rfl)
    · cases hs
  | addJob job =>
    obtain rfl := Option.some.inj hs
    exact fun counter hjob => ⟨(h counter hjob).connection, (h counter hjob).available⟩
  | takeJob =>
    simp only [HandleWorld.step, HandleWorld.takeJob] at hs
    split at hs
    · next job _ _ _ =>
      obtain rfl := Option.some.inj hs
      intro counter hjob
      cases job <;> cases hjob
    · cases hs
  | dropJob =>
    simp only [HandleWorld.step, HandleWorld.dropJob] at hs
    split at hs
    · obtain rfl := Option.some.inj hs
      exact fun counter hjob => ⟨(h counter hjob).connection, (h counter hjob).available⟩
    · obtain rfl := Option.some.inj hs
      exact fun counter hjob => ⟨(h counter hjob).connection, (h counter hjob).available⟩
    · cases hs

/-- In every run of graceful steps, a close job that waits goes on as soon as no
handle is out and no thread is between its increment and its reset. -/
theorem graceful_close_finishes {as : List (Action T)} (hgraceful : Lts.Along step Graceful {} as)
    (h : Lts.exec step {} as = some w) (hjob : w.job = .wait counter) (hhandles : w.handles = 0)
    (hresets : ∀ t available, w.threads t ≠ .resetFetch available) :
    int32 (connectionClosing - counter) = w.state.available ∧
      ∀ created, ∃ w', step w (.job created) = some w' ∧ w'.job = .readConnection := by
  have hdrains : w.Drains :=
    Lts.exec_invariant_along (fun _ _ _ hi hg hs => hi.step hg hs)
      (fun counter hjob => by cases hjob) hgraceful h
  have hnone : w.total ThreadPc.resetting = 0 := by
    refine Finset.sum_eq_zero fun t _ => ?_
    cases hpc : w.threads t with
    | resetFetch available => exact absurd hpc (hresets t available)
    | _ => rfl
  obtain ⟨-, resets, hle, hword⟩ := hdrains counter hjob
  have hzero : resets = 0 := by omega
  have havailable : int32 (connectionClosing - counter) = w.state.available := by
    rw [hword, hhandles, hzero, Nat.cast_zero, add_zero, add_zero]
  refine ⟨havailable, fun created => ⟨{ w with job := .readConnection }, ?_, rfl⟩⟩
  simp [HandleWorld.step, HandleWorld.jobAccess, hjob, havailable]

/-! ### Two close jobs -/

/-- A connection that was never opened is closed: nobody holds a handle and no
thread is inside `GetConnection`, but the job thread waits forever. -/
theorem close_never_opened_hangs :
    ∃ w : HandleWorld (Fin 1),
      Lts.exec step {} [.addJob (.close false), .takeJob, .job exampleConnected] = some w ∧
        w.job = .wait connectionNotAvailable ∧ w.handles = 0 ∧ (∀ t, w.threads t = .outside) ∧
        int32 (connectionClosing - connectionNotAvailable) ≠ w.state.available ∧
        ∀ created, step w (.job created) = some w := by
  have hrun : (Lts.exec step ({} : HandleWorld (Fin 1))
      [.addJob (.close false), .takeJob, .job exampleConnected]).map
        (fun w => (w.job, w.handles, w.threads 0, w.state.available)) =
      some (.wait connectionNotAvailable, 0, .outside, connectionClosing) := by
    decide +kernel
  obtain ⟨w, hw, h⟩ := Option.map_eq_some_iff.mp hrun
  simp only [Prod.mk.injEq] at h
  obtain ⟨hjob, hhandles, hpc, havailable⟩ := h
  have hnever : int32 (connectionClosing - connectionNotAvailable) ≠ w.state.available := by
    rw [havailable]
    decide
  refine ⟨w, hw, hjob, hhandles, Fin.forall_fin_one.mpr hpc, hnever, fun created => ?_⟩
  simp only [step, jobAccess, hjob, hnever, if_false]
  rw [← hjob]

/-- The connection is opened, a handle is out when the close job starts, and returned. -/
def exampleGraceful : List (Action (Fin 2)) :=
  exampleOpened ++
    [.addJob (.close false), .takeJob, .job exampleConnected, .job exampleConnected,
      .returnConnection ⟨0, Nat.two_pos⟩]

theorem graceful_close_finishes_returned :
    ∃ w w', Lts.exec step {} exampleGraceful = some w ∧ w.job = .wait 1 ∧
      step w (.job exampleConnected) = some w' ∧ w'.job = .readConnection := by
  have hrun : (Lts.exec step {} exampleGraceful).map
      (fun w => (w.job, w.handles, w.threads 0, w.threads 1)) =
      some (.wait 1, 0, .outside, .outside) := by
    decide +kernel
  obtain ⟨w, hw, h⟩ := Option.map_eq_some_iff.mp hrun
  simp only [Prod.mk.injEq] at h
  obtain ⟨hjob, hhandles, hpc₀, hpc₁⟩ := h
  have hresets : ∀ t available, w.threads t ≠ .resetFetch available := by
    rw [Fin.forall_fin_two, hpc₀, hpc₁]
    simp
  obtain ⟨w', hw', hjob'⟩ :=
    (graceful_close_finishes (by decide +kernel) hw hjob hhandles hresets).2 exampleConnected
  exact ⟨w, w', hw, hjob, hw', hjob'⟩

end HandleWorld

end Ibdxnet.Con
