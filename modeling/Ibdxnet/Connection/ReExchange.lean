import Ibdxnet.Connection.HandleCounting

/-!
# Who triggers re-transmits

The first `GetConnection` that finds no connection sets `m_triggerReExchange`,
adds the create job and re-transmits while it waits.  It sets the flag back when
it times out, but not when it gets a handle in the wait loop or fails the
sanity check there.

    m_triggerReExchange  ↔  a thread inside `GetConnection` owns the re-transmit

holds along the runs in which no owner finds the connection available
(`trigger_owned`); then the next `GetConnection` enqueues a create job.
-/

namespace Ibdxnet.Con

/-- One for a thread that set `m_triggerReExchange` and is still inside `GetConnection`. -/
def ThreadPc.owns : ThreadPc → Nat
  | .addJob | .load true | .add true | .check true | .returnWaited true | .yielded true | .retried
  | .giveUpCreation | .releaseTrigger => 1
  | _ => 0

/-- The owner of the re-transmit has found the connection available. -/
def ThreadPc.OwnerTakes : ThreadPc → Prop
  | .add true | .check true | .returnWaited true => True
  | _ => False

/-- The thread is inside `GetConnection`. -/
def ThreadPc.Inside (pc : ThreadPc) : Prop := pc ≠ .outside ∧ pc ≠ .nullPointer

namespace HandleWorld

variable {T : Type} [DecidableEq T]

/-- The owner of the re-transmit does not find the connection available. -/
def OwnerTimesOut (w : HandleWorld T) : Action T → Prop
  | .access t => w.threads t = .load true → w.state.available < connectionAvailable
  | .getConnection _ | .returnConnection _ | .retransmit _ | .waitOn _ | .timeOut _ | .addJob _
  | .takeJob | .dropJob | .job _ => True

instance (w : HandleWorld T) : DecidablePred w.OwnerTimesOut
  | .access t =>
    inferInstanceAs (Decidable (w.threads t = .load true → w.state.available < _))
  | .getConnection _ | .returnConnection _ | .retransmit _ | .waitOn _ | .timeOut _ | .addJob _
  | .takeJob | .dropJob | .job _ => isTrue trivial

variable {w w' w₁ : HandleWorld T} {t : T} {pc : ThreadPc}

/-! ## One owner -/

section
variable [Fintype T]

structure Owned (w : HandleWorld T) : Prop where
  owners : w.total ThreadPc.owns = w.state.triggerReExchange.toNat
  waits : ∀ t, ¬ (w.threads t).OwnerTakes

/-- A thread goes on to `pc`. -/
theorem Owned.moves (h : w.Owned) (hthreads : w'.threads = Function.update w.threads t pc)
    (howns : w'.state.triggerReExchange.toNat + (w.threads t).owns =
      w.state.triggerReExchange.toNat + pc.owns)
    (hpc : ¬ pc.OwnerTakes) : w'.Owned where
  owners := by
    have htotal := total_update ThreadPc.owns hthreads
    have howners := h.owners
    omega
  waits u := by
    rw [hthreads, Function.update_apply]
    split
    · exact hpc
    · exact h.waits u

/-- A thread goes on to `pc`, and the flag stays. -/
theorem Owned.goes (h : w.Owned) (hthreads : w'.threads = Function.update w.threads t pc)
    (htrigger : w'.state.triggerReExchange = w.state.triggerReExchange)
    (howns : (w.threads t).owns = pc.owns) (hpc : ¬ pc.OwnerTakes) : w'.Owned :=
  h.moves hthreads (by rw [htrigger, howns]) hpc

omit [DecidableEq T] in
theorem Owned.same (h : w.Owned) (hthreads : w'.threads = w.threads)
    (htrigger : w'.state.triggerReExchange = w.state.triggerReExchange) : w'.Owned where
  owners := by rw [total_congr _ hthreads, htrigger, h.owners]
  waits t := hthreads ▸ h.waits t

theorem Owned.returnHandle (h : w.Owned) (howns : (w.threads t).owns = 0) :
    (w.returnHandle t).Owned := by
  unfold HandleWorld.returnHandle
  split
  · exact h.goes (t := t) rfl rfl howns id
  · exact h.goes (t := t) rfl rfl howns id

theorem Owned.access (h : w.Owned)
    (hload : w.threads t = .load true → w.state.available < connectionAvailable)
    (hs : w.access t = some w') : w'.Owned := by
  have hwaits := h.waits t
  unfold HandleWorld.access at hs
  cases hpc : w.threads t with
  | outside | nullPointer | yielded | retried => simp [hpc] at hs
  | fetchAdd =>
    simp only [hpc, Option.some.injEq] at hs
    subst hs
    split <;> exact h.goes rfl rfl (by rw [hpc]; rfl) id
  | returnAvailable =>
    simp only [hpc, Option.some.injEq] at hs
    subst hs
    exact h.returnHandle (by rw [hpc]; rfl)
  | resetFetch available =>
    simp only [hpc] at hs
    split at hs
    · obtain rfl := Option.some.inj hs
      exact h.goes rfl rfl (by rw [hpc]; rfl) id
    · split at hs <;> obtain rfl := Option.some.inj hs <;>
        exact h.goes rfl rfl (by rw [hpc]; rfl) id
  | loadState =>
    simp only [hpc, Option.some.injEq] at hs
    subst hs
    split <;> exact h.goes rfl rfl (by rw [hpc]; rfl) id
  | requestCreation =>
    simp only [hpc, Option.some.injEq] at hs
    subst hs
    exact h.goes rfl (ConnectionState.requestCreation_triggerReExchange _) (by rw [hpc]; rfl) id
  | triggerReExchange =>
    simp only [hpc] at hs
    split at hs
    · next hfree =>
      obtain rfl := Option.some.inj hs
      refine h.moves (t := t) rfl ?_ id
      rw [hpc, hfree]
      rfl
    · obtain rfl := Option.some.inj hs
      exact h.goes rfl rfl (by rw [hpc]; rfl) id
  | addJob =>
    simp only [hpc, Option.some.injEq] at hs
    subst hs
    exact h.goes (t := t) rfl rfl (by rw [hpc]; rfl) id
  | load triggers =>
    simp only [hpc, Option.some.injEq] at hs
    subst hs
    cases triggers with
    | true =>
      rw [if_neg (not_le.mpr (hload hpc))]
      exact h.goes rfl rfl (by rw [hpc]; rfl) id
    | false => split <;> exact h.goes rfl rfl (by rw [hpc]; rfl) id
  | add triggers =>
    simp only [hpc, Option.some.injEq] at hs
    subst hs
    cases triggers with
    | true => exact absurd (by rw [hpc]; trivial) hwaits
    | false => exact h.goes rfl rfl (by rw [hpc]; rfl) id
  | check triggers =>
    simp only [hpc, Option.some.injEq] at hs
    subst hs
    cases triggers with
    | true => exact absurd (by rw [hpc]; trivial) hwaits
    | false => split <;> exact h.goes rfl rfl (by rw [hpc]; rfl) id
  | returnWaited triggers =>
    simp only [hpc, Option.some.injEq] at hs
    subst hs
    cases triggers with
    | true => exact absurd (by rw [hpc]; trivial) hwaits
    | false => exact h.returnHandle (by rw [hpc]; rfl)
  | giveUpCreation =>
    simp only [hpc, Option.some.injEq] at hs
    subst hs
    exact h.goes rfl (ConnectionState.giveUpCreation_triggerReExchange _) (by rw [hpc]; rfl) id
  | releaseTrigger =>
    simp only [hpc, Option.some.injEq] at hs
    subst hs
    refine h.moves (t := t) rfl ?_ id
    -- the owner is counted, so the flag is set
    have howner : (w.threads t).owns ≤ w.total ThreadPc.owns :=
      Finset.single_le_sum (fun u _ => Nat.zero_le (w.threads u).owns) (Finset.mem_univ t)
    rw [h.owners, hpc] at howner
    rw [hpc]
    cases htrigger : w.state.triggerReExchange with
    | true => rfl
    | false => simp [htrigger, ThreadPc.owns] at howner

theorem Owned.step (h : w.Owned) {a : Action T} (ha : w.OwnerTimesOut a)
    (hs : step w a = some w') : w'.Owned := by
  cases a with
  | getConnection t =>
    simp only [HandleWorld.step] at hs
    split at hs
    · next hpc =>
      obtain rfl := Option.some.inj hs
      exact h.goes rfl rfl (by rw [hpc]; rfl) id
    · cases hs
  | returnConnection t =>
    simp only [HandleWorld.step, HandleWorld.returnConnection] at hs
    split at hs
    · obtain rfl := Option.some.inj hs
      exact h.same rfl rfl
    · cases hs
  | access t => exact h.access ha hs
  | retransmit t =>
    simp only [HandleWorld.step, HandleWorld.retransmit] at hs
    split at hs
    · next hpc =>
      obtain rfl := Option.some.inj hs
      exact h.goes (t := t) rfl rfl (by rw [hpc.1]; rfl) id
    · cases hs
  | waitOn t =>
    simp only [HandleWorld.step, HandleWorld.waitOn] at hs
    split at hs
    · next triggers hpc =>
      obtain rfl := Option.some.inj hs
      cases triggers <;> exact h.goes rfl rfl (by rw [hpc]; rfl) id
    · next hpc =>
      obtain rfl := Option.some.inj hs
      exact h.goes rfl rfl (by rw [hpc]; rfl) id
    · cases hs
  | timeOut t =>
    simp only [HandleWorld.step, HandleWorld.timeOut] at hs
    split at hs
    · next triggers hpc =>
      obtain rfl := Option.some.inj hs
      cases triggers <;> exact h.goes rfl rfl (by rw [hpc]; rfl) id
    · next hpc =>
      obtain rfl := Option.some.inj hs
      exact h.goes rfl rfl (by rw [hpc]; rfl) id
    · cases hs
  | addJob job =>
    obtain rfl := Option.some.inj hs
    exact h.same rfl rfl
  | takeJob =>
    simp only [HandleWorld.step, HandleWorld.takeJob] at hs
    split at hs
    · obtain rfl := Option.some.inj hs
      exact h.same rfl rfl
    · cases hs
  | dropJob =>
    simp only [HandleWorld.step, HandleWorld.dropJob] at hs
    split at hs
    · obtain rfl := Option.some.inj hs
      exact h.same rfl rfl
    · obtain rfl := Option.some.inj hs
      exact h.same rfl rfl
    · cases hs
  | job created =>
    obtain ⟨hthreads, -, htrigger⟩ := jobAccess_frame hs
    exact h.same hthreads htrigger

omit [DecidableEq T] in
theorem owned_new : ({} : HandleWorld T).Owned where
  owners := by simp [total, ThreadPc.owns]
  waits _ := id

omit [DecidableEq T] in
theorem Owned.trigger_iff (h : w.Owned) :
    w.state.triggerReExchange = true ↔ ∃ t, (w.threads t).owns = 1 := by
  have howners := h.owners
  constructor
  · intro htrigger
    rw [htrigger] at howners
    by_contra hnone
    have hzero : w.total ThreadPc.owns = 0 := by
      refine Finset.sum_eq_zero fun t _ => ?_
      have hle : ∀ pc : ThreadPc, pc.owns ≤ 1 := by
        intro pc
        unfold ThreadPc.owns
        split <;> simp
      have ht := hle (w.threads t)
      have hne : (w.threads t).owns ≠ 1 := fun hone => hnone ⟨t, hone⟩
      omega
    rw [hzero] at howners
    cases howners
  · rintro ⟨t, ht⟩
    have hle : (w.threads t).owns ≤ w.total ThreadPc.owns :=
      Finset.single_le_sum (fun u _ => Nat.zero_le (w.threads u).owns) (Finset.mem_univ t)
    cases htrigger : w.state.triggerReExchange with
    | true => rfl
    | false =>
      rw [howners, htrigger, ht] at hle
      simp at hle

end

/-! ## The next create job -/

/-- By its own accesses the thread gets to the wait loop, and adds a create job. -/
def Enqueues (t : T) (w : HandleWorld T) : Prop :=
  ∃ as w', (∀ a ∈ as, a = .access t) ∧ Lts.exec step w as = some w' ∧
    w'.threads t = .load true ∧ w'.jobQueue = w.jobQueue ++ [.create]

theorem Enqueues.of_access (h : Enqueues t w₁) (hs : w.access t = some w₁)
    (hqueue : w₁.jobQueue = w.jobQueue) : Enqueues t w := by
  obtain ⟨as, w', has, hrun, hpc, hjob⟩ := h
  refine ⟨.access t :: as, w', ?_, Lts.exec_cons_eq_some.mpr ⟨w₁, hs, hrun⟩, hpc, ?_⟩
  · simpa using has
  · rw [hjob, hqueue]

theorem enqueues_addJob (hpc : w.threads t = .addJob) : Enqueues t w := by
  refine ⟨[.access t], (w.addJob .create).goTo t (.load true), by simp,
    Lts.exec_cons_eq_some.mpr ⟨_, ?_, Lts.exec_nil _⟩, Function.update_self .., rfl⟩
  simp [HandleWorld.step, HandleWorld.access, hpc]

theorem enqueues_triggerReExchange (hpc : w.threads t = .triggerReExchange)
    (htrigger : w.state.triggerReExchange = false) : Enqueues t w := by
  refine (enqueues_addJob (w := (w.setTrigger true).goTo t .addJob)
    (Function.update_self ..)).of_access ?_ rfl
  simp [HandleWorld.access, hpc, htrigger]

theorem enqueues_loadState (hpc : w.threads t = .loadState) (hstate : w.state.state ≠ .connected)
    (htrigger : w.state.triggerReExchange = false) : Enqueues t w := by
  have hrequested : Enqueues t
      ({ w with state := w.state.requestCreation }.goTo t .triggerReExchange) :=
    enqueues_triggerReExchange (Function.update_self ..) (by simpa using htrigger)
  have hloaded : Enqueues t (w.goTo t .requestCreation) := by
    refine hrequested.of_access ?_ rfl
    simp [HandleWorld.access, goTo]
  refine hloaded.of_access ?_ rfl
  simp [HandleWorld.access, hpc, hstate]

theorem enqueues_resetFetch {available : Int} (hpc : w.threads t = .resetFetch available)
    (hstate : w.state.state ≠ .connected) (htrigger : w.state.triggerReExchange = false) :
    Enqueues t w := by
  -- the second compare exchange expects the value the first one read
  have hsecond : ∀ v : HandleWorld T, v.threads t = .resetFetch v.state.available →
      v.state.state ≠ .connected → v.state.triggerReExchange = false → Enqueues t v := by
    intro v hv hvstate hvtrigger
    have hreset : Enqueues t ((v.setAvailable connectionNotAvailable).goTo t .loadState) :=
      enqueues_loadState (Function.update_self ..) hvstate hvtrigger
    refine hreset.of_access ?_ rfl
    simp [HandleWorld.access, hv]
  by_cases hsame : w.state.available = available
  · exact hsecond w (by rw [hpc, hsame]) hstate htrigger
  · by_cases havailable : connectionAvailable ≤ w.state.available
    · have hleft : Enqueues t (w.goTo t .loadState) :=
        enqueues_loadState (Function.update_self ..) hstate htrigger
      refine hleft.of_access ?_ rfl
      simp [HandleWorld.access, hpc, hsame, havailable]
    · have hagain : Enqueues t (w.goTo t (.resetFetch w.state.available)) :=
        hsecond _ (Function.update_self ..) hstate htrigger
      refine hagain.of_access ?_ rfl
      simp [HandleWorld.access, hpc, hsame, havailable]

theorem enqueues_fetchAdd (hpc : w.threads t = .fetchAdd)
    (havailable : w.state.isAvailable = false) (hstate : w.state.state ≠ .connected)
    (htrigger : w.state.triggerReExchange = false) : Enqueues t w := by
  have hnot : ¬ connectionAvailable ≤ w.state.available := by
    simpa [ConnectionState.isAvailable] using havailable
  have hadded : Enqueues t ((w.setAvailable (int32 (w.state.available + 1))).goTo t
      (.resetFetch w.state.available)) :=
    enqueues_resetFetch (Function.update_self ..) hstate htrigger
  refine hadded.of_access ?_ rfl
  simp [HandleWorld.access, hpc, hnot]

/-- In every state of a run in which no owner of the re-transmit finds the
connection available: the flag is set exactly while a thread inside
`GetConnection` owns the re-transmit.  With no thread inside and no connection,
the next `GetConnection` enqueues a create job; and so does a thread that is the
only one inside and has found the node not connected. -/
theorem trigger_owned [Fintype T] {as : List (Action T)}
    (halong : Lts.Along step OwnerTimesOut {} as) (h : Lts.exec step {} as = some w) :
    (w.state.triggerReExchange = true ↔ ∃ t, (w.threads t).owns = 1) ∧
      ((∀ u, ¬ (w.threads u).Inside) → w.state.state ≠ .connected →
        w.state.isAvailable = false → ∀ t, w.threads t = .outside →
        ∃ w₁, step w (.getConnection t) = some w₁ ∧ w₁.jobQueue = w.jobQueue ∧ Enqueues t w₁) ∧
      ∀ t, w.threads t = .triggerReExchange → (∀ u, u ≠ t → ¬ (w.threads u).Inside) →
        Enqueues t w := by
  have howned : w.Owned :=
    Lts.exec_invariant_along (fun _ _ _ hi ha hs => hi.step ha hs) owned_new halong h
  have howner : ∀ pc : ThreadPc, pc.owns = 1 → pc.Inside := by
    intro pc hpc
    constructor <;> rintro rfl <;> cases hpc
  have hfree : (∀ u, (w.threads u).owns ≠ 1) → w.state.triggerReExchange = false := by
    intro hnone
    cases htrigger : w.state.triggerReExchange with
    | true =>
      obtain ⟨u, hu⟩ := howned.trigger_iff.mp htrigger
      exact absurd hu (hnone u)
    | false => rfl
  refine ⟨howned.trigger_iff, fun hnone hstate havailable t hpc => ?_, fun t hpc hothers => ?_⟩
  · refine ⟨w.goTo t .fetchAdd, by simp [HandleWorld.step, hpc], rfl, ?_⟩
    exact enqueues_fetchAdd (Function.update_self ..) havailable hstate
      (hfree fun u hu => hnone u (howner _ hu))
  · refine enqueues_triggerReExchange hpc (hfree fun u hu => ?_)
    by_cases hut : u = t
    · rw [hut, hpc] at hu
      cases hu
    · exact hothers u hut (howner _ hu)

/-! ### One thread -/

/-- A thread finds no connection and adds the create job. -/
def exampleWaits : List (Action (Fin 1)) := .getConnection 0 :: List.replicate 7 (.access 0)

/-- The connection is created and completed. -/
def exampleEstablished : List (Action (Fin 1)) :=
  .takeJob :: List.replicate 5 (.job exampleConnected) ++
    .addJob (.connect exampleComplete) :: .takeJob :: List.replicate 5 (.job exampleConnected)

/-- The waiting thread gets a handle and returns it; then the connection is closed. -/
def exampleClosed : List (Action (Fin 1)) :=
  List.replicate 4 (.access 0) ++
    .returnConnection 0 :: .addJob (.close true) :: .takeJob ::
      List.replicate 5 (.job exampleConnected)

/-- After an established connection was closed no thread is inside `GetConnection`
but the flag is still set: the next `GetConnection` waits without a create job. -/
theorem trigger_not_released :
    ∃ w, Lts.exec step {} (exampleWaits ++ exampleEstablished ++ exampleClosed) = some w ∧
      w.threads 0 = .outside ∧ w.state.state = .notAvailable ∧ w.state.isAvailable = false ∧
      w.state.triggerReExchange = true ∧
      ∃ w', Lts.exec step w (.getConnection 0 :: List.replicate 6 (.access 0)) = some w' ∧
        w'.threads 0 = .load false ∧ w'.jobQueue = [] := by
  have hclosed : (Lts.exec step {} (exampleWaits ++ exampleEstablished ++ exampleClosed)).map
      (fun w => (w.threads 0, w.state.state, w.state.isAvailable, w.state.triggerReExchange)) =
      some (.outside, .notAvailable, false, true) := by
    decide +kernel
  have hnext : (Lts.exec step {} (exampleWaits ++ exampleEstablished ++ exampleClosed ++
      .getConnection 0 :: List.replicate 6 (.access 0))).map (fun w => (w.threads 0, w.jobQueue)) =
      some (.load false, []) := by
    decide +kernel
  obtain ⟨w', hw', h'⟩ := Option.map_eq_some_iff.mp hnext
  obtain ⟨w, hw, hrun⟩ := Lts.exec_append_eq_some.mp hw'
  rw [hw, Option.map_some, Option.some.injEq] at hclosed
  simp only [Prod.mk.injEq] at hclosed h'
  obtain ⟨hpc, hstate, havailable, htrigger⟩ := hclosed
  exact ⟨w, hw, hpc, hstate, havailable, htrigger, w', hrun, h'.1, h'.2⟩

/-- The waiting thread times out. -/
def exampleTimedOut : List (Action (Fin 1)) :=
  exampleWaits ++ [.access 0, .timeOut 0, .access 0, .access 0]

theorem trigger_owned_timedOut :
    ∃ w w₁, Lts.exec step {} exampleTimedOut = some w ∧ w.state.triggerReExchange = false ∧
      step w (.getConnection 0) = some w₁ ∧ Enqueues 0 w₁ := by
  have hrun : (Lts.exec step {} exampleTimedOut).map
      (fun w => (w.threads 0, w.state.state, w.state.isAvailable, w.state.triggerReExchange)) =
      some (.outside, .notAvailable, false, false) := by
    decide +kernel
  obtain ⟨w, hw, h⟩ := Option.map_eq_some_iff.mp hrun
  simp only [Prod.mk.injEq] at h
  obtain ⟨hpc, hstate, havailable, htrigger⟩ := h
  have hnone : ∀ u, ¬ (w.threads u).Inside := by
    rw [Fin.forall_fin_one, hpc]
    exact fun hinside => hinside.1 rfl
  obtain ⟨w₁, hw₁, -, henqueues⟩ := (trigger_owned (by decide +kernel) hw).2.1 hnone
    (by rw [hstate]; decide) havailable 0 hpc
  exact ⟨w, w₁, hw, htrigger, hw₁, henqueues⟩

end HandleWorld

end Ibdxnet.Con
