import Ibdxnet.Connection.JobQueueSteps
import Ibdxnet.Lib.Sums

/-!
# The job manager: adding jobs and sleeping

`AddJob` of any number of threads and `_RunLoop` of the job thread, each access
to the queue, each operation of `m_jobLock` and `m_jobCondition` a step of its
own.  A job that adds jobs does so as one more of the threads.

The job thread tests `IsEmpty` and goes to sleep under `m_jobLock`, and a thread
notifies it under the same lock after its push.  So between a push and a sleep
there is always one that still has to notify:

    asleep and a job in the queue  →  some thread is about to notify
                                                        (no_lost_wakeup)
    asleep and no call under way   →  every job added was executed, once
                                                        (all_executed)

The second rests on the queue, and on its conditions.
-/

namespace Ibdxnet.Con

open JobQueue

/-- Where a thread is in `AddJob`. -/
inductive AddPc (α : Type*)
  | idle
  /-- in `PushBack` -/
  | pushing
  /-- the queue was full, wait 1 ms -/
  | sleeping (job : α)
  | pushed
  /-- holds `m_jobLock` -/
  | locked
  /-- holds `m_jobLock`, has called `notify_all` -/
  | notified

/-- Where the job thread is in `_RunLoop`. -/
inductive LoopPc (α : Type*)
  | start
  | popping
  | dispatch (job : Option α)
  | idleJob
  | lockJob
  /-- the two loads of `IsEmpty` -/
  | loadFront
  | loadBack (front : Nat)
  /-- about to call `wait_for` -/
  | wait
  | waiting
  | woken
  | unlock

/-- Whether the job thread holds `m_jobLock`. -/
def LoopPc.holds {α : Type*} : LoopPc α → Bool
  | .loadFront | .loadBack _ | .wait | .unlock => true
  | _ => false

inductive Holder (Tid : Type*)
  | loop
  | adder (t : Tid)
  deriving DecidableEq

structure JobManager (Tid α : Type*) where
  queue : QueueSystem Tid α
  adders : Tid → AddPc α
  loop : LoopPc α
  /-- who holds `m_jobLock` -/
  jobLock : Option (Holder Tid)
  /-- the jobs `AddJob` was called with -/
  added : List α
  /-- the jobs dispatched -/
  executed : List α

namespace JobManager

variable {Tid α : Type*} [DecidableEq Tid]

inductive Action (Tid α : Type*)
  /-- thread `t` calls `AddJob` -/
  | addJob (t : Tid) (job : α)
  /-- thread `t`'s next access in `PushBack` -/
  | push (t : Tid) (spurious : Bool)
  /-- thread `t` has slept and tries again -/
  | retry (t : Tid)
  | lock (t : Tid)
  | notifyAll (t : Tid)
  | unlock (t : Tid)
  /-- the job thread's next access -/
  | runLoop
  /-- `wait_for` returns by itself -/
  | timeout

def init : JobManager Tid α where
  queue := .init 1024
  adders _ := .idle
  loop := .start
  jobLock := none
  added := []
  executed := []

def setAdder (m : JobManager Tid α) (t : Tid) (pc : AddPc α) : JobManager Tid α :=
  { m with adders := Function.update m.adders t pc }

/-- Where `AddJob` goes on after an access of its `PushBack`. -/
def afterPush : PushPc α → PushPc α → AddPc α
  | .loadFront job _, .idle => .sleeping job
  | .casBack _ _, .idle => .pushed
  | _, _ => .pushing

/-- Where `_RunLoop` goes on after an access of its `PopFront`. -/
def afterPop : PopPc α → PopPc α → LoopPc α
  | .loadBack _, .idle => .idleJob
  | .fetchAdd job, .idle => .dispatch job
  | _, _ => .popping

/-- `notify_all` wakes the job thread if it waits. -/
def notified (m : JobManager Tid α) : JobManager Tid α :=
  match m.loop with
  | .waiting => { m with loop := .woken }
  | _ => m

/-- One access of the job thread. -/
def loopStep (m : JobManager Tid α) : Option (JobManager Tid α) :=
  match m.loop with
  | .start => (m.queue.step .popFront).map fun queue => { m with queue, loop := .popping }
  | .popping =>
    (m.queue.step .consume).map fun queue =>
      { m with queue, loop := afterPop m.queue.consumer queue.consumer }
  -- the slot was not written
  | .dispatch none => none
  | .dispatch (some job) => some { m with executed := m.executed ++ [job], loop := .start }
  | .idleJob => some { m with loop := .lockJob }
  | .lockJob =>
    match m.jobLock with
    | none => some { m with jobLock := some .loop, loop := .loadFront }
    | some _ => none
  | .loadFront => some { m with loop := .loadBack m.queue.queue.front }
  | .loadBack front =>
    if front % m.queue.queue.size = m.queue.queue.back % m.queue.queue.size then
      some { m with loop := .wait }
    else
      some { m with loop := .unlock }
  -- `wait_for` releases the lock
  | .wait => some { m with jobLock := none, loop := .waiting }
  | .waiting => none
  | .woken =>
    match m.jobLock with
    | none => some { m with jobLock := some .loop, loop := .unlock }
    | some _ => none
  | .unlock => some { m with jobLock := none, loop := .start }

def step (m : JobManager Tid α) : Action Tid α → Option (JobManager Tid α)
  | .addJob t job =>
    match m.adders t with
    | .idle =>
      (m.queue.step (.pushBack t job)).map fun queue =>
        ({ m with queue, added := m.added ++ [job] } : JobManager Tid α).setAdder t .pushing
    | _ => none
  | .push t spurious =>
    match m.adders t with
    | .pushing =>
      (m.queue.step (.produce t spurious)).map fun queue =>
        ({ m with queue } : JobManager Tid α).setAdder t
          (afterPush (m.queue.producers t) (queue.producers t))
    | _ => none
  | .retry t =>
    match m.adders t with
    | .sleeping job =>
      (m.queue.step (.pushBack t job)).map fun queue =>
        ({ m with queue } : JobManager Tid α).setAdder t .pushing
    | _ => none
  | .lock t =>
    match m.adders t, m.jobLock with
    | .pushed, none =>
      some (({ m with jobLock := some (.adder t) } : JobManager Tid α).setAdder t .locked)
    | _, _ => none
  | .notifyAll t =>
    match m.adders t with
    | .locked => some (m.notified.setAdder t .notified)
    | _ => none
  | .unlock t =>
    match m.adders t with
    | .notified => some (({ m with jobLock := none } : JobManager Tid α).setAdder t .idle)
    | _ => none
  | .runLoop => m.loopStep
  | .timeout =>
    match m.loop with
    | .waiting => some { m with loop := .woken }
    | _ => none

/-! ### One thread adds a job while the job thread sleeps -/

/-- The job thread finds an empty queue and goes to sleep. -/
def exampleSleep : List (Action (Fin 2) Nat) := List.replicate 8 .runLoop

def exampleAdd : List (Action (Fin 2) Nat) :=
  .addJob QueueSystem.thread₀ 5 :: List.replicate 5 (.push QueueSystem.thread₀ false)

/-- It is notified, executes the job and goes to sleep again. -/
def exampleWake : List (Action (Fin 2) Nat) :=
  [.lock QueueSystem.thread₀, .notifyAll QueueSystem.thread₀, .unlock QueueSystem.thread₀] ++
    List.replicate 8 .runLoop ++ exampleSleep

/-! ## No wake-up is lost -/

end JobManager

/-- Whether a thread holds `m_jobLock`. -/
def AddPc.holds {α : Type*} : AddPc α → Bool
  | .locked | .notified => true
  | _ => false

/-- The thread's job is in the queue, and it has still to notify. -/
def AddPc.owesNotify {α : Type*} : AddPc α → Bool
  | .pushed | .locked => true
  | _ => false

namespace JobManager

variable {Tid α : Type*}

def LooksEmpty (q : QueueSystem Tid α) : Prop := q.queue.isEmpty = true

theorem looksEmpty_iff {q : QueueSystem Tid α} :
    LooksEmpty q ↔ q.queue.front % q.queue.size = q.queue.back % q.queue.size := by
  rw [LooksEmpty, isEmpty, beq_iff_eq]

/-- Who holds the lock, and why the job thread may sleep. -/
structure Wakes (m : JobManager Tid α) : Prop where
  adder : ∀ t, m.jobLock = some (.adder t) ↔ (m.adders t).holds = true
  loop : m.jobLock = some .loop ↔ m.loop.holds = true
  front : ∀ front, m.loop = .loadBack front → front = m.queue.queue.front
  told : m.loop = .wait ∨ m.loop = .waiting →
    LooksEmpty m.queue ∨ ∃ t, (m.adders t).owesNotify = true

variable [DecidableEq Tid] {m m' : JobManager Tid α} {t : Tid} {pc : AddPc α}
  {q q' : QueueSystem Tid α}

omit [DecidableEq Tid] in
theorem wakes_init : (init : JobManager Tid α).Wakes where
  adder t := by simp [init, AddPc.holds]
  loop := by simp [init, LoopPc.holds]
  front front h := by cases h
  told h := by rcases h with h | h <;> cases h

theorem setAdder_self (m : JobManager Tid α) (t : Tid) (pc : AddPc α) :
    (m.setAdder t pc).adders t = pc := Function.update_self ..

theorem setAdder_of_ne (m : JobManager Tid α) (pc : AddPc α) {u : Tid} (hu : u ≠ t) :
    (m.setAdder t pc).adders u = m.adders u := Function.update_of_ne hu ..

/-- A thread that has to notify is still there when others move on. -/
theorem exists_owes (h : ∃ u, (m.adders u).owesNotify = true)
    (hpc : (m.adders t).owesNotify = true → pc.owesNotify = true) :
    ∃ u, ((m.setAdder t pc).adders u).owesNotify = true := by
  obtain ⟨u, hu⟩ := h
  by_cases hut : u = t
  · subst hut
    exact ⟨u, by rw [setAdder_self]; exact hpc hu⟩
  · exact ⟨u, by rwa [setAdder_of_ne m pc hut]⟩

/-- Who holds the lock when a thread moves on that does not take or release it. -/
theorem Wakes.setAdder (h : m.Wakes) (q' : QueueSystem Tid α)
    (hholds : pc.holds = (m.adders t).holds)
    (hfront : q'.queue.front = m.queue.queue.front)
    (hempty : LooksEmpty m.queue → LooksEmpty q' ∨ pc.owesNotify = true)
    (howes : (m.adders t).owesNotify = true → pc.owesNotify = true) (added : List α) :
    (({ m with queue := q', added } : JobManager Tid α).setAdder t pc).Wakes where
  adder u := by
    change m.jobLock = some (.adder u) ↔ _
    rw [h.adder u]
    by_cases hut : u = t
    · subst hut
      rw [setAdder_self, hholds]
    · rw [setAdder_of_ne _ pc hut]
  loop := h.loop
  front front hloop := (h.front front hloop).trans hfront.symm
  told hsleep := by
    rcases h.told hsleep with hlooks | hnotify
    · refine (hempty hlooks).imp_right fun hpc => ⟨t, ?_⟩
      rwa [setAdder_self]
    · exact Or.inr (exists_owes (m := { m with queue := q', added }) hnotify howes)

/-- What an access of a push changes: the back only when it returns. -/
theorem produce_back {spurious : Bool} (hs : q.step (.produce t spurious) = some q') :
    q'.queue.front = q.queue.front ∧ q'.queue.size = q.queue.size ∧
      (q'.queue.back = q.queue.back ∨ afterPush (q.producers t) (q'.producers t) = .pushed) := by
  simp only [QueueSystem.step, QueueSystem.producerStep] at hs
  split at hs
  · cases hs
  · cases hs
    exact ⟨rfl, rfl, Or.inl rfl⟩
  · split at hs <;> cases hs
    · exact ⟨rfl, rfl, Or.inl rfl⟩
    · exact ⟨rfl, rfl, Or.inl rfl⟩
  · split at hs <;> cases hs
    · exact ⟨rfl, rfl, Or.inl rfl⟩
    · exact ⟨rfl, rfl, Or.inl rfl⟩
  · cases hs
    exact ⟨rfl, rfl, Or.inl rfl⟩
  · next ht =>
    split at hs <;> cases hs
    · refine ⟨rfl, rfl, Or.inr ?_⟩
      rw [ht, QueueSystem.setProducer_producers, if_pos rfl]
      rfl
    · exact ⟨rfl, rfl, Or.inl rfl⟩

theorem afterPush_holds (before after : PushPc α) : (afterPush before after).holds = false := by
  unfold afterPush
  split <;> rfl

theorem Wakes.push (h : m.Wakes) {spurious : Bool} (ht : m.adders t = .pushing)
    (hs : m.queue.step (.produce t spurious) = some q') :
    (({ m with queue := q' } : JobManager Tid α).setAdder t
      (afterPush (m.queue.producers t) (q'.producers t))).Wakes := by
  obtain ⟨hfront, hsize, hback⟩ := produce_back hs
  refine h.setAdder _ ?_ hfront (fun hempty => ?_) ?_ m.added
  · rw [ht, afterPush_holds]
    rfl
  · rcases hback with hback | hpushed
    · left
      rw [looksEmpty_iff, hfront, hsize, hback]
      exact looksEmpty_iff.mp hempty
    · right
      rw [hpushed]
      rfl
  · rw [ht]
    exact nofun

/-- A call of `PushBack` changes neither end of the queue. -/
theorem pushBack_eq {job : α} (hs : q.step (.pushBack t job) = some q') :
    q.producers t = .idle ∧ q' = q.setProducer t (.loadBackRes job) := by
  simp only [QueueSystem.step] at hs
  split at hs
  · next ht => exact ⟨ht, (Option.some.inj hs).symm⟩
  · cases hs

theorem Wakes.pushBack (h : m.Wakes) {job : α} (hholds : (m.adders t).holds = false)
    (howes : (m.adders t).owesNotify = false)
    (hs : m.queue.step (.pushBack t job) = some q') (added : List α) :
    (({ m with queue := q', added } : JobManager Tid α).setAdder t .pushing).Wakes := by
  obtain ⟨-, rfl⟩ := pushBack_eq hs
  refine h.setAdder (m.queue.setProducer t (.loadBackRes job)) ?_ rfl Or.inl ?_ added
  · rw [hholds]
    rfl
  · rw [howes]
    exact nofun

theorem Wakes.lock (h : m.Wakes) (ht : m.adders t = .pushed) (hfree : m.jobLock = none) :
    (({ m with jobLock := some (.adder t) } : JobManager Tid α).setAdder t .locked).Wakes where
  adder u := by
    change some (Holder.adder t) = some (.adder u) ↔ _
    by_cases hut : u = t
    · subst hut
      rw [setAdder_self]
      exact iff_of_true rfl rfl
    · rw [setAdder_of_ne _ _ hut, ← h.adder u, hfree]
      refine iff_of_false (fun heq => hut ?_) nofun
      exact (Holder.adder.inj (Option.some.inj heq)).symm
  loop := by
    change some (Holder.adder t) = some .loop ↔ m.loop.holds = true
    rw [← h.loop, hfree]
    exact iff_of_false nofun nofun
  front := h.front
  told hsleep := (h.told hsleep).imp_right fun howes =>
    exists_owes (m := { m with jobLock := some (.adder t) }) howes fun _ => rfl

omit [DecidableEq Tid] in
/-- A thread that holds the lock finds the job thread asleep, or not going to sleep. -/
theorem Wakes.loop_ne_wait (h : m.Wakes) (ht : (m.adders t).holds = true) : m.loop ≠ .wait := by
  intro hloop
  have hadder := (h.adder t).mpr ht
  have hheld := h.loop.mpr (by rw [hloop]; rfl)
  rw [hadder] at hheld
  cases hheld

theorem Wakes.notifyAll (h : m.Wakes) (ht : m.adders t = .locked) :
    (m.notified.setAdder t .notified).Wakes := by
  have hwait : m.loop ≠ .wait := h.loop_ne_wait (t := t) (by rw [ht]; rfl)
  have hlock : m.notified.jobLock = m.jobLock ∧ m.notified.adders = m.adders ∧
      m.notified.queue = m.queue ∧ m.notified.loop.holds = m.loop.holds := by
    unfold JobManager.notified
    split
    · next hloop => exact ⟨rfl, rfl, rfl, by rw [hloop]; rfl⟩
    · exact ⟨rfl, rfl, rfl, rfl⟩
  have hawake : m.notified.loop ≠ .wait ∧ m.notified.loop ≠ .waiting ∧
      ∀ front, m.notified.loop = .loadBack front → m.loop = .loadBack front := by
    unfold JobManager.notified
    split
    · exact ⟨nofun, nofun, nofun⟩
    · next hwaiting => exact ⟨hwait, hwaiting, fun _ => id⟩
  refine ⟨fun u => ?_, ?_, fun front hloop => ?_, fun hsleep => ?_⟩
  · change m.notified.jobLock = _ ↔ _
    rw [hlock.1, h.adder u]
    by_cases hut : u = t
    · subst hut
      rw [setAdder_self, ht]
      exact Iff.rfl
    · rw [setAdder_of_ne _ _ hut, hlock.2.1]
  · change m.notified.jobLock = _ ↔ m.notified.loop.holds = true
    rw [hlock.1, hlock.2.2.2, h.loop]
  · change _ = m.notified.queue.queue.front
    rw [hlock.2.2.1]
    exact h.front front (hawake.2.2 front hloop)
  · exact absurd hsleep (not_or.mpr ⟨hawake.1, hawake.2.1⟩)

theorem Wakes.unlock (h : m.Wakes) (ht : m.adders t = .notified) :
    (({ m with jobLock := none } : JobManager Tid α).setAdder t .idle).Wakes where
  adder u := by
    refine iff_of_false nofun ?_
    by_cases hut : u = t
    · subst hut
      rw [setAdder_self]
      exact nofun
    · rw [setAdder_of_ne _ _ hut]
      change ¬ (m.adders u).holds = true
      have hheld := (h.adder t).mpr (by rw [ht]; rfl)
      rw [← h.adder u, hheld]
      intro heq
      exact hut (Holder.adder.inj (Option.some.inj heq)).symm
  loop := by
    change none = some Holder.loop ↔ m.loop.holds = true
    have hheld := (h.adder t).mpr (by rw [ht]; rfl)
    rw [← h.loop, hheld]
    exact iff_of_false nofun nofun
  front := h.front
  told hsleep := (h.told hsleep).imp_right fun howes =>
    exists_owes (m := { m with jobLock := none }) howes (by rw [ht]; exact nofun)

omit [DecidableEq Tid] in
/-- The job thread goes on without the lock, or with it. -/
theorem Wakes.run (h : m.Wakes) (next : LoopPc α) (hholds : next.holds = m.loop.holds)
    (hfront : ∀ front, next = .loadBack front → front = q'.queue.front)
    (htold : next = .wait ∨ next = .waiting → LooksEmpty q') (executed : List α) :
    Wakes { m with queue := q', loop := next, executed } where
  adder := h.adder
  loop := by
    change _ ↔ next.holds = true
    rw [hholds]
    exact h.loop
  front := hfront
  told hsleep := Or.inl (htold hsleep)

omit [DecidableEq Tid] in
/-- The job thread takes the lock. -/
theorem Wakes.take (h : m.Wakes) (hfree : m.jobLock = none) (next : LoopPc α)
    (hholds : next.holds = true) (hfront : ∀ front, next ≠ .loadBack front)
    (hwait : next ≠ .wait) (hwaiting : next ≠ .waiting) :
    Wakes { m with jobLock := some .loop, loop := next } where
  adder t := by
    change some Holder.loop = some (.adder t) ↔ (m.adders t).holds = true
    rw [← h.adder t, hfree]
    exact iff_of_false nofun nofun
  loop := iff_of_true rfl hholds
  front front hnext := absurd hnext (hfront front)
  told hsleep := absurd hsleep (not_or.mpr ⟨hwait, hwaiting⟩)

omit [DecidableEq Tid] in
/-- The job thread releases the lock. -/
theorem Wakes.release (h : m.Wakes) (hheld : m.loop.holds = true) (next : LoopPc α)
    (hholds : next.holds = false) (hfront : ∀ front, next ≠ .loadBack front)
    (htold : next = .wait ∨ next = .waiting →
      LooksEmpty m.queue ∨ ∃ t, (m.adders t).owesNotify = true) :
    Wakes { m with jobLock := none, loop := next } where
  adder t := by
    change none = some (Holder.adder t) ↔ (m.adders t).holds = true
    rw [← h.adder t, h.loop.mpr hheld]
    exact iff_of_false nofun nofun
  loop := iff_of_false nofun (by simp [hholds])
  front front hnext := absurd hnext (hfront front)
  told := htold

theorem afterPop_holds (before after : PopPc α) : (afterPop before after).holds = false := by
  unfold afterPop
  split <;> rfl

theorem afterPop_awake (before after : PopPc α) :
    (∀ front, afterPop before after ≠ .loadBack front) ∧ afterPop before after ≠ .wait ∧
      afterPop before after ≠ .waiting := by
  unfold afterPop
  split <;> exact ⟨nofun, nofun, nofun⟩

theorem Wakes.loopStep (h : m.Wakes) (hs : m.loopStep = some m') : m'.Wakes := by
  unfold JobManager.loopStep at hs
  cases hloop : m.loop with
  | start =>
    rw [hloop] at hs
    obtain ⟨queue, -, rfl⟩ := Option.map_eq_some_iff.mp hs
    exact h.run .popping (by rw [hloop]; rfl) nofun nofun m.executed
  | popping =>
    rw [hloop] at hs
    obtain ⟨queue, -, rfl⟩ := Option.map_eq_some_iff.mp hs
    obtain ⟨hback, hwait, hwaiting⟩ := afterPop_awake m.queue.consumer queue.consumer
    refine h.run _ ?_ (fun front hnext => absurd hnext (hback front))
      (fun hsleep => absurd hsleep (not_or.mpr ⟨hwait, hwaiting⟩)) m.executed
    rw [hloop, afterPop_holds]
    rfl
  | dispatch job =>
    rw [hloop] at hs
    cases job with
    | none => cases hs
    | some job =>
      obtain rfl := Option.some.inj hs
      exact h.run .start (by rw [hloop]; rfl) nofun nofun _
  | idleJob =>
    rw [hloop] at hs
    obtain rfl := Option.some.inj hs
    exact h.run .lockJob (by rw [hloop]; rfl) nofun nofun m.executed
  | lockJob =>
    rw [hloop] at hs
    simp only at hs
    split at hs
    · next hfree =>
      obtain rfl := Option.some.inj hs
      exact h.take hfree .loadFront rfl nofun nofun nofun
    · cases hs
  | loadFront =>
    rw [hloop] at hs
    obtain rfl := Option.some.inj hs
    refine h.run (.loadBack m.queue.queue.front) (by rw [hloop]; rfl) (fun front hnext => ?_) nofun
      m.executed
    exact (LoopPc.loadBack.inj hnext).symm
  | loadBack front =>
    rw [hloop] at hs
    simp only at hs
    split at hs
    · next hempty =>
      -- the front is still the one that was loaded
      rw [h.front front hloop] at hempty
      obtain rfl := Option.some.inj hs
      exact h.run .wait (by rw [hloop]; rfl) nofun (fun _ => looksEmpty_iff.mpr hempty) m.executed
    · obtain rfl := Option.some.inj hs
      exact h.run .unlock (by rw [hloop]; rfl) nofun nofun m.executed
  | wait =>
    rw [hloop] at hs
    obtain rfl := Option.some.inj hs
    exact h.release (by rw [hloop]; rfl) .waiting rfl nofun fun _ => h.told (Or.inl hloop)
  | waiting =>
    rw [hloop] at hs
    cases hs
  | woken =>
    rw [hloop] at hs
    simp only at hs
    split at hs
    · next hfree =>
      obtain rfl := Option.some.inj hs
      exact h.take hfree .unlock rfl nofun nofun nofun
    · cases hs
  | unlock =>
    rw [hloop] at hs
    obtain rfl := Option.some.inj hs
    exact h.release (by rw [hloop]; rfl) .start rfl nofun nofun

theorem Wakes.step {a : Action Tid α} (h : m.Wakes) (hs : m.step a = some m') : m'.Wakes := by
  cases a with
  | addJob t job =>
    simp only [JobManager.step] at hs
    split at hs
    · next ht =>
      obtain ⟨queue, hqueue, rfl⟩ := Option.map_eq_some_iff.mp hs
      exact h.pushBack (by rw [ht]; rfl) (by rw [ht]; rfl) hqueue _
    · cases hs
  | push t spurious =>
    simp only [JobManager.step] at hs
    split at hs
    · next ht =>
      obtain ⟨queue, hqueue, rfl⟩ := Option.map_eq_some_iff.mp hs
      exact h.push ht hqueue
    · cases hs
  | retry t =>
    simp only [JobManager.step] at hs
    split at hs
    · next ht =>
      obtain ⟨queue, hqueue, rfl⟩ := Option.map_eq_some_iff.mp hs
      exact h.pushBack (by rw [ht]; rfl) (by rw [ht]; rfl) hqueue _
    · cases hs
  | lock t =>
    simp only [JobManager.step] at hs
    split at hs
    · next ht hfree =>
      obtain rfl := Option.some.inj hs
      exact h.lock ht hfree
    · cases hs
  | notifyAll t =>
    simp only [JobManager.step] at hs
    split at hs
    · next ht =>
      obtain rfl := Option.some.inj hs
      exact h.notifyAll ht
    · cases hs
  | unlock t =>
    simp only [JobManager.step] at hs
    split at hs
    · next ht =>
      obtain rfl := Option.some.inj hs
      exact h.unlock ht
    · cases hs
  | runLoop => exact h.loopStep hs
  | timeout =>
    simp only [JobManager.step] at hs
    split at hs
    · next hloop =>
      obtain rfl := Option.some.inj hs
      exact h.run .woken (by rw [hloop]; rfl) nofun nofun m.executed
    · cases hs

theorem wakes_of_exec {as : List (Action Tid α)} (h : Lts.exec step init as = some m) :
    m.Wakes :=
  Lts.exec_invariant (fun _ _ _ hi hs => hi.step hs) wakes_init h

/-- **The job thread never oversleeps a job**: while it waits and the queue is
not empty, a thread that pushed has still to notify it. -/
theorem no_lost_wakeup {as : List (Action Tid α)} (h : Lts.exec step init as = some m)
    (hwaiting : m.loop = .waiting) (hqueue : ¬ LooksEmpty m.queue) :
    ∃ t, m.adders t = .pushed ∨ m.adders t = .locked := by
  obtain ⟨t, ht⟩ := ((wakes_of_exec h).told (Or.inr hwaiting)).resolve_left hqueue
  refine ⟨t, ?_⟩
  cases hpc : m.adders t with
  | pushed => exact Or.inl rfl
  | locked => exact Or.inr rfl
  | idle | pushing | sleeping | notified =>
    rw [hpc] at ht
    cases ht

theorem no_lost_wakeup_example : ∃ m : JobManager (Fin 2) Nat,
    Lts.exec step init (exampleSleep ++ exampleAdd) = some m ∧ m.loop = .waiting ∧
      ∃ t, m.adders t = .pushed ∨ m.adders t = .locked := by
  obtain ⟨m, hrun, hwaiting, hqueue⟩ : ∃ m : JobManager (Fin 2) Nat,
      Lts.exec step init (exampleSleep ++ exampleAdd) = some m ∧ m.loop = .waiting ∧
        ¬ LooksEmpty m.queue := ⟨_, rfl, rfl, Bool.false_ne_true⟩
  exact ⟨m, hrun, hwaiting, no_lost_wakeup hrun hwaiting hqueue⟩

/-! ## Every job is executed -/

/-- What the queue is asked to do in a step. -/
def queueAction (m : JobManager Tid α) : Action Tid α → Option (QueueAction Tid α)
  | .addJob t job => some (.pushBack t job)
  | .push t spurious => some (.produce t spurious)
  | .retry t =>
    match m.adders t with
    | .sleeping job => some (.pushBack t job)
    | _ => none
  | .runLoop =>
    match m.loop with
    | .start => some .popFront
    | .popping => some .consume
    | _ => none
  | _ => none

/-- The queue has room, and threads publish in turn. -/
def QueueOk (m : JobManager Tid α) (a : Action Tid α) : Prop :=
  ∀ b ∈ m.queueAction a, m.queue.FewPending b ∧ m.queue.PublishedInTurn b

instance (q : QueueSystem Tid α) (b : QueueAction Tid α) : Decidable (q.FewPending b) :=
  match b with
  | .produce t false =>
    inferInstanceAs (Decidable ((q.producers t).Reserves q.queue.backRes →
      q.numPending + 1 < q.queue.size))
  | .produce _ true | .pushBack _ _ | .popFront | .consume => isTrue trivial

instance (m : JobManager Tid α) (a : Action Tid α) : Decidable (m.QueueOk a) :=
  inferInstanceAs (Decidable (∀ b ∈ m.queueAction a,
    m.queue.FewPending b ∧ m.queue.PublishedInTurn b))

/-- A step is one of the queue, or the queue stays. -/
theorem step_queue {a : Action Tid α} (hs : m.step a = some m') :
    (∃ b ∈ m.queueAction a, m.queue.step b = some m'.queue) ∨ m'.queue = m.queue := by
  cases a with
  | addJob t job =>
    simp only [JobManager.step] at hs
    split at hs
    · obtain ⟨queue, hqueue, rfl⟩ := Option.map_eq_some_iff.mp hs
      exact Or.inl ⟨_, rfl, hqueue⟩
    · cases hs
  | push t spurious =>
    simp only [JobManager.step] at hs
    split at hs
    · obtain ⟨queue, hqueue, rfl⟩ := Option.map_eq_some_iff.mp hs
      exact Or.inl ⟨_, rfl, hqueue⟩
    · cases hs
  | retry t =>
    simp only [JobManager.step] at hs
    split at hs
    · next ht =>
      obtain ⟨queue, hqueue, rfl⟩ := Option.map_eq_some_iff.mp hs
      exact Or.inl ⟨_, by simp only [queueAction, ht, Option.mem_some_iff], hqueue⟩
    · cases hs
  | lock t =>
    simp only [JobManager.step] at hs
    split at hs <;> cases hs
    exact Or.inr rfl
  | notifyAll t =>
    simp only [JobManager.step, JobManager.notified] at hs
    split at hs
    · split at hs <;> cases hs <;> exact Or.inr rfl
    · cases hs
  | unlock t =>
    simp only [JobManager.step] at hs
    split at hs <;> cases hs
    exact Or.inr rfl
  | runLoop =>
    simp only [JobManager.step, JobManager.loopStep] at hs
    cases hloop : m.loop with
    | start =>
      rw [hloop] at hs
      obtain ⟨queue, hqueue, rfl⟩ := Option.map_eq_some_iff.mp hs
      exact Or.inl ⟨_, by simp only [queueAction, hloop, Option.mem_some_iff], hqueue⟩
    | popping =>
      rw [hloop] at hs
      obtain ⟨queue, hqueue, rfl⟩ := Option.map_eq_some_iff.mp hs
      exact Or.inl ⟨_, by simp only [queueAction, hloop, Option.mem_some_iff], hqueue⟩
    | dispatch job =>
      rw [hloop] at hs
      cases job <;> cases hs
      exact Or.inr rfl
    | loadBack front =>
      rw [hloop] at hs
      simp only at hs
      split at hs <;> cases hs <;> exact Or.inr rfl
    | lockJob | woken =>
      rw [hloop] at hs
      simp only at hs
      split at hs <;> cases hs
      exact Or.inr rfl
    | waiting =>
      rw [hloop] at hs
      cases hs
    | idleJob | loadFront | wait | unlock =>
      rw [hloop] at hs
      cases hs
      exact Or.inr rfl
  | timeout =>
    simp only [JobManager.step] at hs
    split at hs <;> cases hs
    exact Or.inr rfl

/-- The queue's own invariant holds, and it has the places it was made with. -/
theorem queue_inv_step {a : Action Tid α}
    (h : (∃ B pos, m.queue.Inv B pos) ∧ m.queue.queue.size = 1024) (hok : m.QueueOk a)
    (hs : m.step a = some m') :
    (∃ B pos, m'.queue.Inv B pos) ∧ m'.queue.queue.size = 1024 := by
  obtain ⟨⟨B, pos, hinv⟩, hsize⟩ := h
  rcases step_queue hs with ⟨b, hb, hstep⟩ | hsame
  · obtain ⟨hfew, hturn⟩ := hok b hb
    have hdvd : m.queue.queue.size ∣ 2 ^ 32 := by
      rw [hsize]
      decide
    exact ⟨hinv.step ((QueueSystem.roomy_iff hdvd b).mpr hfew) hturn hstep,
      (QueueSystem.size_step hstep).trans hsize⟩
  · rw [hsame]
    exact ⟨⟨B, pos, hinv⟩, hsize⟩

/-- The job that was popped and is to be dispatched. -/
def dispatching : LoopPc α → List (Option α)
  | .dispatch job => [job]
  | _ => []

variable [DecidableEq α]

/-- Whether a call of `AddJob` has still to reserve a position for `job`. -/
def owes (job : α) : AddPc α × PushPc α → Nat
  | (.sleeping j, _) => if j = job then 1 else 0
  | (_, .loadBackRes j) => if j = job then 1 else 0
  | (_, .loadFront j _) => if j = job then 1 else 0
  | (_, .casBackRes j _) => if j = job then 1 else 0
  | _ => 0

variable [Fintype Tid]

/-- Where every job is that was added. -/
structure Accounts (m : JobManager Tid α) : Prop where
  resting : ∀ t, m.adders t ≠ .pushing → m.queue.producers t = .idle
  executed : m.queue.popped = m.executed.map some ++ dispatching m.loop
  added : ∀ job, m.added.count job =
    m.queue.reservations.count job + ∑ t, owes job (m.adders t, m.queue.producers t)

omit [DecidableEq Tid] in
theorem accounts_init : (init : JobManager Tid α).Accounts where
  resting _ _ := rfl
  executed := rfl
  added job := by
    have hnone : ∑ t : Tid, owes job ((init : JobManager Tid α).adders t,
        (init : JobManager Tid α).queue.producers t) = 0 := Finset.sum_eq_zero fun _ _ => rfl
    rw [hnone]
    rfl

/-- One thread goes on in `AddJob`. -/
theorem Accounts.setAdder (h : m.Accounts) (q' : QueueSystem Tid α) (push : PushPc α)
    (added : List α)
    (hproducers : q'.producers = Function.update m.queue.producers t push)
    (hrest : pc ≠ .pushing → push = .idle) (hpopped : q'.popped = m.queue.popped)
    (hcount : ∀ job, added.count job + m.queue.reservations.count job +
        owes job (m.adders t, m.queue.producers t) =
      m.added.count job + q'.reservations.count job + owes job (pc, push)) :
    (({ m with queue := q', added } : JobManager Tid α).setAdder t pc).Accounts where
  resting u hu := by
    change q'.producers u = .idle
    rw [hproducers]
    by_cases hut : u = t
    · subst hut
      rw [setAdder_self] at hu
      rw [Function.update_self]
      exact hrest hu
    · rw [setAdder_of_ne _ _ hut] at hu
      rw [Function.update_of_ne hut]
      exact h.resting u hu
  executed := hpopped.trans h.executed
  added job := by
    have hone := hcount job
    have htotal := h.added job
    have hfamily : (fun u => (Function.update m.adders t pc u, q'.producers u)) =
        Function.update (fun u => (m.adders u, m.queue.producers u)) t (pc, push) := by
      funext u
      rw [hproducers]
      by_cases hut : u = t
      · subst hut
        simp only [Function.update_self]
      · simp only [Function.update_of_ne hut]
    have hsum := Sums.sum_update (owes job) (fun u => (m.adders u, m.queue.producers u)) t
      (pc, push)
    rw [← hfamily] at hsum
    change added.count job = q'.reservations.count job +
      ∑ u, owes job (Function.update m.adders t pc u, q'.producers u)
    dsimp only at hsum
    omega

omit [Fintype Tid] in
/-- What an access of a push reserves. -/
theorem produce_accounts {spurious : Bool} (hs : q.step (.produce t spurious) = some q') :
    q'.producers = Function.update q.producers t (q'.producers t) ∧ q'.popped = q.popped ∧
      ∀ job, q.reservations.count job + owes job (.pushing, q.producers t) =
        q'.reservations.count job +
          owes job (afterPush (q.producers t) (q'.producers t), q'.producers t) := by
  simp only [QueueSystem.step, QueueSystem.producerStep] at hs
  cases ht : q.producers t with
  | idle =>
    rw [ht] at hs
    cases hs
  | loadBackRes j =>
    rw [ht] at hs
    cases hs
    simp [QueueSystem.setProducer, owes, afterPush]
  | loadFront j backRes =>
    rw [ht] at hs
    simp only at hs
    split at hs <;> cases hs <;> simp [QueueSystem.setProducer, owes, afterPush]
  | casBackRes j backRes =>
    rw [ht] at hs
    simp only at hs
    split at hs <;> cases hs
    · simp [QueueSystem.setProducer, owes, afterPush, List.count_singleton]
    · simp [QueueSystem.setProducer, owes, afterPush]
  | writeSlot j backRes =>
    rw [ht] at hs
    cases hs
    simp [QueueSystem.setProducer, owes, afterPush]
  | casBack backRes reserved =>
    rw [ht] at hs
    simp only at hs
    split at hs <;> cases hs <;> simp [QueueSystem.setProducer, owes, afterPush]

omit [DecidableEq α] [Fintype Tid] in
theorem afterPush_rest {before after : PushPc α} (h : afterPush before after ≠ .pushing) :
    after = .idle := by
  unfold afterPush at h
  split at h
  · rfl
  · rfl
  · exact absurd rfl h

omit [DecidableEq α] [Fintype Tid] in
/-- What an access of a pop hands out. -/
theorem consume_accounts (hs : q.step .consume = some q') :
    q'.producers = q.producers ∧ q'.reservations = q.reservations ∧
      q'.popped = q.popped ++ dispatching (afterPop q.consumer q'.consumer) := by
  simp only [QueueSystem.step, QueueSystem.consumerStep] at hs
  cases hc : q.consumer with
  | idle =>
    rw [hc] at hs
    cases hs
  | loadBack front =>
    rw [hc] at hs
    simp only at hs
    split at hs <;> cases hs <;> exact ⟨rfl, rfl, (List.append_nil _).symm⟩
  | loadFront | readSlot front =>
    rw [hc] at hs
    cases hs
    exact ⟨rfl, rfl, (List.append_nil _).symm⟩
  | fetchAdd job =>
    rw [hc] at hs
    cases hs
    exact ⟨rfl, rfl, rfl⟩

theorem Accounts.pushBack (h : m.Accounts) {job : α} {added : List α}
    (hs : m.queue.step (.pushBack t job) = some q')
    (hcount : ∀ j, added.count j + owes j (m.adders t, .idle) =
      m.added.count j + if job = j then 1 else 0) :
    (({ m with queue := q', added } : JobManager Tid α).setAdder t .pushing).Accounts := by
  obtain ⟨hidle, rfl⟩ := pushBack_eq hs
  refine h.setAdder (m.queue.setProducer t (.loadBackRes job)) (.loadBackRes job) added rfl
    (fun hne => absurd rfl hne) rfl fun j => ?_
  have hj := hcount j
  have hnew : owes j (.pushing, .loadBackRes job) = if job = j then 1 else 0 := rfl
  rw [hidle, hnew]
  change _ = _ + m.queue.reservations.count j + _
  omega

theorem Accounts.loopStep (h : m.Accounts) (hs : m.loopStep = some m') : m'.Accounts := by
  have hpopped := h.executed
  unfold JobManager.loopStep at hs
  cases hloop : m.loop with
  | start =>
    rw [hloop] at hs hpopped
    obtain ⟨queue, hqueue, rfl⟩ := Option.map_eq_some_iff.mp hs
    simp only [QueueSystem.step] at hqueue
    split at hqueue
    · obtain rfl := Option.some.inj hqueue
      exact ⟨h.resting, hpopped, h.added⟩
    · cases hqueue
  | popping =>
    replace hpopped : m.queue.popped = m.executed.map some := by
      rw [hpopped, hloop]
      exact List.append_nil _
    rw [hloop] at hs
    obtain ⟨queue, hqueue, rfl⟩ := Option.map_eq_some_iff.mp hs
    obtain ⟨hproducers, hreservations, hhanded⟩ := consume_accounts hqueue
    refine ⟨fun t ht => ?_, ?_, fun job => ?_⟩
    · rw [hproducers]
      exact h.resting t ht
    · rw [← hpopped]
      exact hhanded
    · rw [hproducers, hreservations]
      exact h.added job
  | dispatch job =>
    rw [hloop] at hs hpopped
    cases job with
    | none => cases hs
    | some job =>
      obtain rfl := Option.some.inj hs
      refine ⟨h.resting, ?_, h.added⟩
      rw [List.map_append]
      exact hpopped.trans (List.append_nil _).symm
  | lockJob | woken =>
    rw [hloop] at hs hpopped
    simp only at hs
    split at hs <;> cases hs
    exact ⟨h.resting, hpopped, h.added⟩
  | loadBack front =>
    rw [hloop] at hs hpopped
    simp only at hs
    split at hs <;> cases hs <;> exact ⟨h.resting, hpopped, h.added⟩
  | waiting =>
    rw [hloop] at hs
    cases hs
  | idleJob | loadFront | wait | unlock =>
    rw [hloop] at hs hpopped
    cases hs
    exact ⟨h.resting, hpopped, h.added⟩

/-- A thread that does not touch the queue. -/
theorem Accounts.moves (h : m.Accounts) (hrest : m.adders t ≠ .pushing)
    (hpc : ∀ job, owes job (pc, .idle) = owes job (m.adders t, .idle)) :
    (m.setAdder t pc).Accounts := by
  have hidle := h.resting t hrest
  refine h.setAdder m.queue .idle m.added ?_ (fun _ => rfl) rfl fun job => ?_
  · rw [← hidle, Function.update_eq_self]
  · rw [hidle, hpc]

theorem Accounts.step {a : Action Tid α} (h : m.Accounts) (hs : m.step a = some m') :
    m'.Accounts := by
  cases a with
  | addJob t job =>
    simp only [JobManager.step] at hs
    split at hs
    · next ht =>
      obtain ⟨queue, hqueue, rfl⟩ := Option.map_eq_some_iff.mp hs
      refine h.pushBack hqueue fun j => ?_
      rw [ht, List.count_append, List.count_singleton]
      simp [owes]
    · cases hs
  | push t spurious =>
    simp only [JobManager.step] at hs
    split at hs
    · next ht =>
      obtain ⟨queue, hqueue, rfl⟩ := Option.map_eq_some_iff.mp hs
      obtain ⟨hproducers, hpopped, hcount⟩ := produce_accounts hqueue
      refine h.setAdder _ _ m.added hproducers afterPush_rest hpopped fun j => ?_
      have hj := hcount j
      rw [ht]
      omega
    · cases hs
  | retry t =>
    simp only [JobManager.step] at hs
    split at hs
    · next ht =>
      obtain ⟨queue, hqueue, rfl⟩ := Option.map_eq_some_iff.mp hs
      refine h.pushBack hqueue fun j => ?_
      rw [ht]
      rfl
    · cases hs
  | lock t =>
    simp only [JobManager.step] at hs
    split at hs
    · next ht hfree =>
      obtain rfl := Option.some.inj hs
      have htaken : Accounts { m with jobLock := some (.adder t) } :=
        ⟨h.resting, h.executed, h.added⟩
      exact htaken.moves (by rw [ht]; exact nofun) fun job => by rw [ht]; rfl
    · cases hs
  | notifyAll t =>
    simp only [JobManager.step] at hs
    split at hs
    · next ht =>
      obtain rfl := Option.some.inj hs
      have hnotified : m.notified.Accounts ∧ m.notified.adders = m.adders := by
        unfold JobManager.notified
        split
        · next hloop =>
          have hpopped := h.executed
          rw [hloop] at hpopped
          exact ⟨⟨h.resting, hpopped, h.added⟩, rfl⟩
        · exact ⟨h, rfl⟩
      refine hnotified.1.moves ?_ fun job => ?_
      · rw [hnotified.2, ht]
        exact nofun
      · rw [hnotified.2, ht]
        rfl
    · cases hs
  | unlock t =>
    simp only [JobManager.step] at hs
    split at hs
    · next ht =>
      obtain rfl := Option.some.inj hs
      have hfree : Accounts { m with jobLock := none } := ⟨h.resting, h.executed, h.added⟩
      exact hfree.moves (by rw [ht]; exact nofun) fun job => by rw [ht]; rfl
    · cases hs
  | runLoop => exact h.loopStep hs
  | timeout =>
    simp only [JobManager.step] at hs
    split at hs
    · next hloop =>
      obtain rfl := Option.some.inj hs
      have hpopped := h.executed
      rw [hloop] at hpopped
      exact ⟨h.resting, hpopped, h.added⟩
    · cases hs

/-- **Asleep with no call under way, the job thread has executed every job that
was added**, each one once, in the order of their reservations. -/
theorem all_executed {as : List (Action Tid α)} (h : Lts.exec step init as = some m)
    (hqueue : Lts.Along step QueueOk init as) (hwaiting : m.loop = .waiting)
    (hidle : ∀ t, m.adders t = .idle) :
    m.executed = m.queue.reservations ∧ m.executed.Perm m.added := by
  obtain ⟨⟨⟨B, pos, hinv⟩, -⟩, haccounts⟩ :
      ((∃ B pos, m.queue.Inv B pos) ∧ m.queue.queue.size = 1024) ∧ m.Accounts := by
    refine Lts.exec_invariant_along
      (I := fun m : JobManager Tid α =>
        ((∃ B pos, m.queue.Inv B pos) ∧ m.queue.queue.size = 1024) ∧ m.Accounts)
      (fun m a m' hi hok hs => ⟨queue_inv_step hi.1 hok hs, hi.2.step hs⟩)
      ⟨⟨⟨0, _, QueueSystem.init_inv 1024⟩, rfl⟩, accounts_init⟩ hqueue h
  have hpushing : ∀ t, m.queue.producers t = .idle := fun t =>
    haccounts.resting t (by rw [hidle t]; exact nofun)
  -- nothing is published that was not popped, and nothing reserved that was not published
  have hempty : LooksEmpty m.queue := by
    refine ((wakes_of_exec h).told (Or.inr hwaiting)).resolve_right ?_
    rintro ⟨t, ht⟩
    rw [hidle t] at ht
    cases ht
  have hback : m.queue.popped.length = B := hinv.looks_empty_iff.mp (looksEmpty_iff.mp hempty)
  have hreserved : B = m.queue.reservations.length := by
    refine Nat.le_antisymm hinv.back_le_backRes (Nat.le_of_not_lt fun hlt => ?_)
    obtain ⟨t, ht, -⟩ := hinv.owned B (Nat.le_refl B) hlt
    exact ht (by rw [hpushing t]; rfl)
  have hexecuted : m.executed = m.queue.reservations := by
    have hpopped := haccounts.executed
    rw [hwaiting, hinv.popped, hback, hreserved, List.take_length] at hpopped
    replace hpopped : m.queue.reservations.map some = m.executed.map some :=
      hpopped.trans (List.append_nil _)
    exact (List.map_injective_iff.mpr (Option.some_injective α) hpopped).symm
  refine ⟨hexecuted, List.perm_iff_count.mpr fun job => ?_⟩
  have hnone : ∑ t, owes job (m.adders t, m.queue.producers t) = 0 :=
    Finset.sum_eq_zero fun t _ => by rw [hidle t, hpushing t]; rfl
  have hadded := haccounts.added job
  rw [hnone, Nat.add_zero] at hadded
  rw [hadded, hexecuted]

theorem all_executed_example : ∃ m : JobManager (Fin 2) Nat,
    Lts.exec step init (exampleSleep ++ exampleAdd ++ exampleWake) = some m ∧
      m.executed = m.queue.reservations ∧ m.executed.Perm m.added := by
  have hqueue : Lts.Along step QueueOk (init : JobManager (Fin 2) Nat)
      (exampleSleep ++ exampleAdd ++ exampleWake) := by decide +kernel
  obtain ⟨m, hrun, hwaiting, hidle⟩ : ∃ m : JobManager (Fin 2) Nat,
      Lts.exec step init (exampleSleep ++ exampleAdd ++ exampleWake) = some m ∧
        m.loop = .waiting ∧ ∀ t, m.adders t = .idle :=
    ⟨_, rfl, rfl, Fin.forall_fin_two.mpr ⟨rfl, rfl⟩⟩
  exact ⟨m, hrun, all_executed hrun hqueue hwaiting hidle⟩

end JobManager

end Ibdxnet.Con
