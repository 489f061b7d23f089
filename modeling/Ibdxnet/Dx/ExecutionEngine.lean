import Ibdxnet.Lib.Lts
import Ibdxnet.Sys.Exception
import Mathlib.Logic.Function.Basic

/-!
# The execution engine

`ExecutionEngine` with its workers, each a `ThreadLoop`: one thread calls the
engine, and the threads of the workers take their steps in between.

    a round of a worker dispatches its units once each, in the order
      they were added, and is counted as idle or active       (rounds_in_order)
    after `Stop` no unit is dispatched, and no round is left
      unfinished                                              (stopped_for_good)

`step` is `none` where the source joins a thread that is not there, or starts a
second one for a worker.
-/

namespace Ibdxnet.Dx

/-- Where the thread of a worker is. -/
inductive ThreadPc
  /-- not started, or joined -/
  | none
  /-- about to test `m_run` -/
  | loop
  /-- in `_RunLoop`, at unit `pos` -/
  | dispatching (pos : Nat) (idle : Bool)
  /-- `_Run` has returned -/
  | finished
  deriving DecidableEq, Repr

/-- What the idle timer says: more than 1000 ms, more than 500 ms, or less. -/
inductive Parking
  | sleep
  | yield
  | spin
  deriving DecidableEq, Repr

/-- `ExecutionEngine::Worker`; `U` stands for the execution units. -/
structure Worker (U : Type*) where
  executionUnits : List U
  /-- `m_thread != nullptr` -/
  isStarted : Bool
  /-- `m_run` -/
  run : Bool
  thread : ThreadPc
  idleTimerRunning : Bool
  idleCounter : Nat
  activeCounter : Nat
  yieldCounter : Nat
  sleepCounter : Nat
  /-- the units dispatched in the rounds that are over, with what they returned -/
  rounds : List (List (U × Bool))
  /-- those of the round under way -/
  current : List (U × Bool)

namespace Worker

variable {U : Type*}

def new : Worker U where
  executionUnits := []
  isStarted := false
  run := true
  thread := .none
  idleTimerRunning := false
  idleCounter := 0
  activeCounter := 0
  yieldCounter := 0
  sleepCounter := 0
  rounds := []
  current := []

variable (w : Worker U)

def addExecutionUnit (unit : U) : Except Sys.Exception (Worker U) :=
  if w.isStarted then .error (.illegalState "EE already running")
  else .ok { w with executionUnits := w.executionUnits ++ [unit] }

/-- The parking strategy, if all units were idle. -/
def park : Parking → Worker U
  | .sleep => { w with sleepCounter := w.sleepCounter + 1 }
  | .yield => { w with yieldCounter := w.yieldCounter + 1 }
  | .spin => w

/-- The end of `_RunLoop`. -/
def endRound (idle : Bool) (parking : Parking) : Worker U :=
  let w' :=
    if idle then
      { w.park parking with idleTimerRunning := true, idleCounter := w.idleCounter + 1 }
    else
      { w with idleTimerRunning := false, activeCounter := w.activeCounter + 1 }
  { w' with thread := .loop, rounds := w.rounds ++ [w.current], current := [] }

/-- The next step of the worker's thread; `busy` is what a `Dispatch` returns. -/
def threadStep (busy : Bool) (parking : Parking) : Option (Worker U) :=
  match w.thread with
  | .none | .finished => none
  | .loop =>
    if w.run then some { w with thread := .dispatching 0 true }
    else some { w with thread := .finished }
  | .dispatching pos idle =>
    match w.executionUnits[pos]? with
    | some unit =>
      some
        { w with
          thread := .dispatching (pos + 1) (if busy then false else idle)
          current := w.current ++ [(unit, busy)] }
    | none => some (w.endRound idle parking)

/-- `Start`, of a worker without a thread. -/
def start : Option (Worker U) :=
  match w.thread with
  | .none => some { w with isStarted := true, thread := .loop }
  | _ => none

/-- The first half of `ThreadLoop::Stop`. -/
def stopRun : Worker U := { w with run := false }

/-- `Join` returns once the thread is finished. -/
def join : Option (Worker U) :=
  match w.thread with
  | .finished => some { w with thread := .none }
  | _ => none

/-- All units dispatched so far, with what they returned. -/
def dispatched : List (U × Bool) := w.rounds.flatten ++ w.current

end Worker

/-- Where the thread is that calls the engine. -/
inductive ControllerPc
  | idle
  | starting (workerId : Nat)
  | stopping (workerId : Nat)
  | joining (workerId : Nat)
  deriving DecidableEq, Repr

structure ExecutionEngine (U : Type*) where
  threadCount : Nat
  workers : Nat → Worker U
  controller : ControllerPc
  /-- a call of `Stop` has returned -/
  stopped : Bool
  /-- the exceptions thrown -/
  thrown : List Sys.Exception

namespace ExecutionEngine

variable {U : Type*}

inductive Action (U : Type*)
  | addExecutionUnit (workerId : Nat) (unit : U)
  | start
  | stop
  /-- the next step of `Start` or `Stop` -/
  | controller
  /-- the next step of a worker's thread -/
  | worker (workerId : Nat) (busy : Bool) (parking : Parking)

def new (threadCount : Nat) : ExecutionEngine U where
  threadCount := threadCount
  workers _ := .new
  controller := .idle
  stopped := false
  thrown := []

def setWorker (e : ExecutionEngine U) (workerId : Nat) (w : Worker U) : ExecutionEngine U :=
  { e with workers := Function.update e.workers workerId w }

/-- The loops of `Start` and `Stop`. -/
def controllerStep (e : ExecutionEngine U) : Option (ExecutionEngine U) :=
  match e.controller with
  | .idle => none
  | .starting i =>
    if i < e.threadCount then
      (e.workers i).start.map fun w => { e.setWorker i w with controller := .starting (i + 1) }
    else
      some { e with controller := .idle }
  | .stopping i =>
    if i < e.threadCount then
      some { e.setWorker i (e.workers i).stopRun with controller := .joining i }
    else
      some { e with controller := .idle, stopped := true }
  | .joining i =>
    (e.workers i).join.map fun w => { e.setWorker i w with controller := .stopping (i + 1) }

def step (e : ExecutionEngine U) : Action U → Option (ExecutionEngine U)
  | .addExecutionUnit workerId unit =>
    match e.controller with
    | .idle =>
      if workerId ≥ e.threadCount then
        some { e with thrown := e.thrown ++ [.illegalState "Worker id invalid: %d"] }
      else
        match (e.workers workerId).addExecutionUnit unit with
        | .ok w => some (e.setWorker workerId w)
        | .error ex => some { e with thrown := e.thrown ++ [ex] }
    | _ => none
  | .start =>
    match e.controller with
    | .idle => some { e with controller := .starting 0 }
    | _ => none
  | .stop =>
    match e.controller with
    | .idle => some { e with controller := .stopping 0 }
    | _ => none
  | .controller => e.controllerStep
  | .worker workerId busy parking =>
    ((e.workers workerId).threadStep busy parking).map (e.setWorker workerId)

end ExecutionEngine

/-! ## What a worker has dispatched -/

namespace Worker

variable {U : Type*} {w w' : Worker U}

/-- A unit did something in the round. -/
def Active (round : List (U × Bool)) : Bool := round.any Prod.snd

/-- Where the round under way is. -/
def InRound (w : Worker U) : Prop :=
  match w.thread with
  | .dispatching pos idle =>
    pos ≤ w.executionUnits.length ∧ w.current.map Prod.fst = w.executionUnits.take pos ∧
      idle = !Active w.current
  | _ => w.current = []

structure Ok (w : Worker U) : Prop where
  rounds : ∀ round ∈ w.rounds, round.map Prod.fst = w.executionUnits
  inRound : w.InRound
  active : w.activeCounter = w.rounds.countP Active
  idle : w.idleCounter = w.rounds.countP fun round => !Active round
  parked : w.yieldCounter + w.sleepCounter ≤ w.idleCounter
  notStarted : w.isStarted = false → w.thread = .none ∧ w.rounds = []

theorem ok_new : (new : Worker U).Ok where
  rounds _ h := by cases h
  inRound := rfl
  active := rfl
  idle := rfl
  parked := Nat.le_refl 0
  notStarted _ := ⟨rfl, rfl⟩

theorem Ok.addExecutionUnit (h : w.Ok) {unit : U} (hs : w.addExecutionUnit unit = .ok w') :
    w'.Ok := by
  unfold Worker.addExecutionUnit at hs
  split at hs
  · cases hs
  · next hstarted =>
    obtain rfl := Except.ok.inj hs
    obtain ⟨hthread, hrounds⟩ := h.notStarted (Bool.eq_false_iff.mpr hstarted)
    refine ⟨?_, ?_, h.active, h.idle, h.parked, h.notStarted⟩
    · intro round hround
      rw [hrounds] at hround
      cases hround
    · have hcurrent := h.inRound
      unfold InRound at hcurrent ⊢
      rw [hthread] at hcurrent
      rw [hthread]
      exact hcurrent

theorem Ok.start (h : w.Ok) (hs : w.start = some w') : w'.Ok := by
  unfold Worker.start at hs
  split at hs
  · next hthread =>
    obtain rfl := Option.some.inj hs
    have hcurrent := h.inRound
    unfold InRound at hcurrent
    rw [hthread] at hcurrent
    exact ⟨h.rounds, hcurrent, h.active, h.idle, h.parked, nofun⟩
  · cases hs

theorem Ok.stopRun (h : w.Ok) : w.stopRun.Ok :=
  ⟨h.rounds, h.inRound, h.active, h.idle, h.parked, h.notStarted⟩

theorem Ok.join (h : w.Ok) (hs : w.join = some w') : w'.Ok := by
  unfold Worker.join at hs
  split at hs
  · next hthread =>
    obtain rfl := Option.some.inj hs
    have hcurrent := h.inRound
    unfold InRound at hcurrent
    rw [hthread] at hcurrent
    refine ⟨h.rounds, hcurrent, h.active, h.idle, h.parked, ?_⟩
    intro hstarted
    exact ⟨rfl, (h.notStarted hstarted).2⟩
  · cases hs

@[simp] theorem park_fields (w : Worker U) (parking : Parking) :
    (w.park parking).executionUnits = w.executionUnits ∧
      (w.park parking).isStarted = w.isStarted ∧
      (w.park parking).activeCounter = w.activeCounter ∧
      (w.park parking).yieldCounter + (w.park parking).sleepCounter ≤
        w.yieldCounter + w.sleepCounter + 1 := by
  cases parking <;> refine ⟨rfl, rfl, rfl, ?_⟩ <;> simp only [park] <;> omega

/-- The round is over: every unit was dispatched. -/
theorem Ok.endRound (h : w.Ok) {pos : Nat} {idle : Bool}
    (hthread : w.thread = .dispatching pos idle) (hend : w.executionUnits[pos]? = none)
    (parking : Parking) : (w.endRound idle parking).Ok := by
  have hround := h.inRound
  unfold InRound at hround
  rw [hthread] at hround
  obtain ⟨hpos, hcurrent, hidle⟩ := hround
  have hlast : pos = w.executionUnits.length := by
    have hle := List.getElem?_eq_none_iff.mp hend
    omega
  rw [hlast, List.take_length] at hcurrent
  have hstarted : w.isStarted ≠ false := by
    intro hnot
    have hnone := (h.notStarted hnot).1
    rw [hthread] at hnone
    cases hnone
  obtain ⟨hunits, hisStarted, hactive, hparked⟩ := park_fields w parking
  have hbound := h.parked
  cases hbusy : Active w.current with
  | true =>
    rw [hbusy] at hidle
    subst hidle
    refine ⟨?_, rfl, ?_, ?_, ?_, ?_⟩
    · intro round hmem
      rcases List.mem_append.mp hmem with hmem | hmem
      · exact h.rounds round hmem
      · rw [List.mem_singleton.mp hmem]
        exact hcurrent
    · show w.activeCounter + 1 = (w.rounds ++ [w.current]).countP Active
      rw [List.countP_append, List.countP_singleton, hbusy, h.active]
      rfl
    · show w.idleCounter = (w.rounds ++ [w.current]).countP fun round => !Active round
      rw [List.countP_append, List.countP_singleton, hbusy, h.idle]
      rfl
    · exact hbound
    · intro hnot
      exact absurd hnot hstarted
  | false =>
    rw [hbusy] at hidle
    subst hidle
    refine ⟨?_, rfl, ?_, ?_, ?_, ?_⟩
    · intro round hmem
      show round.map Prod.fst = (w.park parking).executionUnits
      rw [hunits]
      rcases List.mem_append.mp hmem with hmem | hmem
      · exact h.rounds round hmem
      · rw [List.mem_singleton.mp hmem]
        exact hcurrent
    · show (w.park parking).activeCounter = (w.rounds ++ [w.current]).countP Active
      rw [hactive, List.countP_append, List.countP_singleton, hbusy, h.active]
      rfl
    · show w.idleCounter + 1 = (w.rounds ++ [w.current]).countP fun round => !Active round
      rw [List.countP_append, List.countP_singleton, hbusy, h.idle]
      rfl
    · show (w.park parking).yieldCounter + (w.park parking).sleepCounter ≤ w.idleCounter + 1
      omega
    · intro hnot
      exact absurd (hisStarted.symm.trans hnot) hstarted

theorem Ok.threadStep (h : w.Ok) {busy : Bool} {parking : Parking}
    (hs : w.threadStep busy parking = some w') : w'.Ok := by
  have hround := h.inRound
  have hstarted : w.thread ≠ .none → w.isStarted ≠ false := by
    intro hthread hnot
    exact hthread (h.notStarted hnot).1
  unfold Worker.threadStep at hs
  cases hthread : w.thread with
  | none | finished =>
    rw [hthread] at hs
    cases hs
  | loop =>
    unfold InRound at hround
    rw [hthread] at hround hs hstarted
    have hnot := hstarted nofun
    simp only at hs
    split at hs <;> obtain rfl := Option.some.inj hs
    · refine ⟨h.rounds, ⟨Nat.zero_le _, ?_, ?_⟩, h.active, h.idle, h.parked,
        fun hn => absurd hn hnot⟩
      · show w.current.map Prod.fst = _
        rw [hround]
        rfl
      · show true = !Active w.current
        rw [hround]
        rfl
    · exact ⟨h.rounds, hround, h.active, h.idle, h.parked, fun hn => absurd hn hnot⟩
  | dispatching pos idle =>
    unfold InRound at hround
    rw [hthread] at hround hs hstarted
    have hnot := hstarted nofun
    obtain ⟨hpos, hcurrent, hidle⟩ := hround
    cases hunit : w.executionUnits[pos]? with
    | none =>
      simp only [hunit] at hs
      obtain rfl := Option.some.inj hs
      exact h.endRound hthread hunit parking
    | some unit =>
      simp only [hunit] at hs
      obtain rfl := Option.some.inj hs
      obtain ⟨hlt, hget⟩ := List.getElem?_eq_some_iff.mp hunit
      refine ⟨h.rounds, ⟨hlt, ?_, ?_⟩, h.active, h.idle, h.parked, fun hn => absurd hn hnot⟩
      · show (w.current ++ [(unit, busy)]).map Prod.fst = w.executionUnits.take (pos + 1)
        rw [List.map_append, hcurrent, List.take_add_one, hunit]
        rfl
      · show (if busy then false else idle) = !Active (w.current ++ [(unit, busy)])
        rw [hidle]
        cases busy <;> simp [Active]

/-! ## A worker that was stopped -/

/-- The worker was told to stop, and dispatches nothing. -/
def Quiet (w : Worker U) : Prop :=
  w.run = false ∧ (w.thread = .none ∨ w.thread = .loop ∨ w.thread = .finished)

theorem Quiet.current (h : w.Quiet) (hok : w.Ok) : w.current = [] := by
  have hround := hok.inRound
  unfold InRound at hround
  rcases h.2 with hthread | hthread | hthread <;> rw [hthread] at hround <;> exact hround

theorem Quiet.threadStep (h : w.Quiet) {busy : Bool} {parking : Parking}
    (hs : w.threadStep busy parking = some w') : w'.Quiet ∧ w'.dispatched = w.dispatched := by
  obtain ⟨hrun, hthread⟩ := h
  unfold Worker.threadStep at hs
  rcases hthread with hthread | hthread | hthread
  · rw [hthread] at hs
    cases hs
  · rw [hthread] at hs
    obtain rfl := Option.some.inj ((if_neg (Bool.eq_false_iff.mp hrun)).symm.trans hs)
    exact ⟨⟨hrun, Or.inr (Or.inr rfl)⟩, rfl⟩
  · rw [hthread] at hs
    cases hs

theorem Quiet.addExecutionUnit (h : w.Quiet) {unit : U}
    (hs : w.addExecutionUnit unit = .ok w') : w'.Quiet ∧ w'.dispatched = w.dispatched := by
  unfold Worker.addExecutionUnit at hs
  split at hs
  · cases hs
  · obtain rfl := Except.ok.inj hs
    exact ⟨h, rfl⟩

theorem Quiet.start (h : w.Quiet) (hs : w.start = some w') :
    w'.Quiet ∧ w'.dispatched = w.dispatched := by
  unfold Worker.start at hs
  split at hs
  · obtain rfl := Option.some.inj hs
    exact ⟨⟨h.1, Or.inr (Or.inl rfl)⟩, rfl⟩
  · cases hs

/-- A worker that was told to stop and has been joined is quiet. -/
theorem quiet_of_join (hrun : w.run = false) (hs : w.join = some w') :
    w'.Quiet ∧ w'.dispatched = w.dispatched := by
  unfold Worker.join at hs
  split at hs
  · obtain rfl := Option.some.inj hs
    exact ⟨⟨hrun, Or.inl rfl⟩, rfl⟩
  · cases hs

/-- `m_run` is only written by `Stop`. -/
theorem run_threadStep {busy : Bool} {parking : Parking}
    (hs : w.threadStep busy parking = some w') : w'.run = w.run := by
  unfold Worker.threadStep at hs
  split at hs
  · cases hs
  · cases hs
  · split at hs <;> obtain rfl := Option.some.inj hs <;> rfl
  · split at hs <;> obtain rfl := Option.some.inj hs
    · rfl
    · unfold Worker.endRound
      split
      · cases parking <;> rfl
      · rfl

end Worker

/-! ## All runs of the engine -/

namespace ExecutionEngine

variable {U : Type*} {e e' : ExecutionEngine U}

/-- What a step of the engine does to one worker. -/
inductive Touches (w : Worker U) : Worker U → Prop
  | add {unit : U} {w' : Worker U} (h : w.addExecutionUnit unit = .ok w') : Touches w w'
  | start {w' : Worker U} (h : w.start = some w') : Touches w w'
  | stopRun : Touches w w.stopRun
  | join {w' : Worker U} (h : w.join = some w') : Touches w w'
  | thread {busy : Bool} {parking : Parking} {w' : Worker U}
    (h : w.threadStep busy parking = some w') : Touches w w'

theorem Touches.ok {w w' : Worker U} (ht : Touches w w') (h : w.Ok) : w'.Ok := by
  cases ht with
  | add hs => exact h.addExecutionUnit hs
  | start hs => exact h.start hs
  | stopRun => exact h.stopRun
  | join hs => exact h.join hs
  | thread hs => exact h.threadStep hs

theorem Touches.quiet {w w' : Worker U} (ht : Touches w w') (h : w.Quiet) :
    w'.Quiet ∧ w'.dispatched = w.dispatched := by
  cases ht with
  | add hs => exact h.addExecutionUnit hs
  | start hs => exact h.start hs
  | stopRun => exact ⟨⟨rfl, h.2⟩, rfl⟩
  | join hs => exact Worker.quiet_of_join h.1 hs
  | thread hs => exact h.threadStep hs

/-- A worker that was told to stop stays so. -/
theorem Touches.run {w w' : Worker U} (ht : Touches w w') (h : w.run = false) : w'.run = false := by
  cases ht with
  | add hs =>
    unfold Worker.addExecutionUnit at hs
    split at hs
    · cases hs
    · obtain rfl := Except.ok.inj hs
      exact h
  | start hs =>
    unfold Worker.start at hs
    split at hs
    · obtain rfl := Option.some.inj hs
      exact h
    · cases hs
  | stopRun => rfl
  | join hs => exact (Worker.quiet_of_join h hs).1.1
  | thread hs => exact (Worker.run_threadStep hs).trans h

/-- A step leaves the workers alone, or touches one of them. -/
theorem step_touches {a : Action U} (hs : e.step a = some e') :
    e'.threadCount = e.threadCount ∧ (e'.workers = e.workers ∨ ∃ i w, Touches (e.workers i) w ∧
      e'.workers = Function.update e.workers i w) := by
  cases a with
  | addExecutionUnit workerId unit =>
    simp only [step] at hs
    split at hs
    · split at hs
      · obtain rfl := Option.some.inj hs
        exact ⟨rfl, Or.inl rfl⟩
      · split at hs <;> obtain rfl := Option.some.inj hs
        · next hw => exact ⟨rfl, Or.inr ⟨workerId, _, .add hw, rfl⟩⟩
        · exact ⟨rfl, Or.inl rfl⟩
    · cases hs
  | start | stop =>
    simp only [step] at hs
    split at hs
    · obtain rfl := Option.some.inj hs
      exact ⟨rfl, Or.inl rfl⟩
    · cases hs
  | controller =>
    simp only [step, controllerStep] at hs
    split at hs
    · cases hs
    · split at hs
      · obtain ⟨w, hw, rfl⟩ := Option.map_eq_some_iff.mp hs
        exact ⟨rfl, Or.inr ⟨_, w, .start hw, rfl⟩⟩
      · obtain rfl := Option.some.inj hs
        exact ⟨rfl, Or.inl rfl⟩
    · split at hs <;> obtain rfl := Option.some.inj hs
      · exact ⟨rfl, Or.inr ⟨_, _, .stopRun, rfl⟩⟩
      · exact ⟨rfl, Or.inl rfl⟩
    · obtain ⟨w, hw, rfl⟩ := Option.map_eq_some_iff.mp hs
      exact ⟨rfl, Or.inr ⟨_, w, .join hw, rfl⟩⟩
  | worker workerId busy parking =>
    obtain ⟨w, hw, rfl⟩ := Option.map_eq_some_iff.mp hs
    exact ⟨rfl, Or.inr ⟨workerId, w, .thread hw, rfl⟩⟩

theorem ok_step {a : Action U} (h : ∀ i, (e.workers i).Ok) (hs : e.step a = some e') (i : Nat) :
    (e'.workers i).Ok := by
  rcases (step_touches hs).2 with hsame | ⟨j, w, ht, hupdate⟩
  · rw [hsame]
    exact h i
  · rw [hupdate]
    by_cases hij : i = j
    · subst hij
      rw [Function.update_self]
      exact ht.ok (h i)
    · rw [Function.update_of_ne hij]
      exact h i

/-- **Every round dispatches every unit once, in the order they were added**, in
every interleaving of the calls and the workers' threads; a round is counted as
active if a unit did something and as idle if none did. -/
theorem rounds_in_order {threadCount : Nat} {as : List (Action U)}
    (h : Lts.exec step (new threadCount) as = some e) (i : Nat) :
    (∀ round ∈ (e.workers i).rounds, round.map Prod.fst = (e.workers i).executionUnits) ∧
      (e.workers i).current.map Prod.fst <+: (e.workers i).executionUnits ∧
      (e.workers i).activeCounter = (e.workers i).rounds.countP Worker.Active ∧
      (e.workers i).idleCounter = (e.workers i).rounds.countP (fun round => !Worker.Active round) ∧
      (e.workers i).yieldCounter + (e.workers i).sleepCounter ≤ (e.workers i).idleCounter := by
  have hok : (e.workers i).Ok :=
    Lts.exec_invariant (I := fun e : ExecutionEngine U => ∀ i, (e.workers i).Ok)
      (fun _ _ _ hi hs => ok_step hi hs) (fun _ => Worker.ok_new) h i
  refine ⟨hok.rounds, ?_, hok.active, hok.idle, hok.parked⟩
  have hround := hok.inRound
  unfold Worker.InRound at hround
  split at hround
  · rw [hround.2.1]
    exact List.take_prefix _ _
  · rw [hround]
    exact List.nil_prefix

/-! ## After `Stop` -/

theorem quiet_step {a : Action U} {i : Nat} (h : (e.workers i).Quiet) (hs : e.step a = some e') :
    (e'.workers i).Quiet ∧ (e'.workers i).dispatched = (e.workers i).dispatched := by
  rcases (step_touches hs).2 with hsame | ⟨j, w, ht, hupdate⟩
  · rw [hsame]
    exact ⟨h, rfl⟩
  · rw [hupdate]
    by_cases hij : i = j
    · subst hij
      rw [Function.update_self]
      exact ht.quiet h
    · rw [Function.update_of_ne hij]
      exact ⟨h, rfl⟩

theorem run_step {a : Action U} {i : Nat} (h : (e.workers i).run = false)
    (hs : e.step a = some e') : (e'.workers i).run = false := by
  rcases (step_touches hs).2 with hsame | ⟨j, w, ht, hupdate⟩
  · rw [hsame]
    exact h
  · rw [hupdate]
    by_cases hij : i = j
    · subst hij
      rw [Function.update_self]
      exact ht.run h
    · rw [Function.update_of_ne hij]
      exact h

/-- How far `Stop` has come. -/
structure Stops (e : ExecutionEngine U) : Prop where
  stopping : ∀ i, e.controller = .stopping i → ∀ j < i, (e.workers j).Quiet
  joining : ∀ i, e.controller = .joining i →
    (∀ j < i, (e.workers j).Quiet) ∧ (e.workers i).run = false
  stopped : e.stopped = true → ∀ i < e.threadCount, (e.workers i).Quiet

theorem stops_new (threadCount : Nat) : (new threadCount : ExecutionEngine U).Stops where
  stopping i h := by cases h
  joining i h := by cases h
  stopped h := by cases h

/-- A step that does not move the calling thread into or in `Stop`. -/
theorem Stops.keep {a : Action U} (h : e.Stops) (hs : e.step a = some e')
    (hcontroller : e'.controller = e.controller ∨ e'.controller = .idle ∨
      ∃ i, e'.controller = .starting i)
    (hcount : e'.threadCount = e.threadCount) (hstopped : e'.stopped = e.stopped) : e'.Stops := by
  refine ⟨?_, ?_, ?_⟩
  · intro i hi j hj
    rcases hcontroller with hsame | hidle | ⟨k, hstarting⟩
    · exact (quiet_step (h.stopping i (hsame.symm.trans hi) j hj) hs).1
    · rw [hidle] at hi
      cases hi
    · rw [hstarting] at hi
      cases hi
  · intro i hi
    rcases hcontroller with hsame | hidle | ⟨k, hstarting⟩
    · obtain ⟨hbefore, hrun⟩ := h.joining i (hsame.symm.trans hi)
      exact ⟨fun j hj => (quiet_step (hbefore j hj) hs).1, run_step hrun hs⟩
    · rw [hidle] at hi
      cases hi
    · rw [hstarting] at hi
      cases hi
  · intro hdone i hi
    rw [hstopped] at hdone
    rw [hcount] at hi
    exact (quiet_step (h.stopped hdone i hi) hs).1

/-- A step of the loop in `Stop`. -/
theorem Stops.controller (h : e.Stops) (hs : e.step .controller = some e') : e'.Stops := by
  have hquiet := fun i hi => (quiet_step (e := e) (i := i) hi hs).1
  have hstep := hs
  simp only [step, controllerStep] at hstep
  cases hcontroller : e.controller with
  | idle =>
    rw [hcontroller] at hstep
    cases hstep
  | starting i =>
    rw [hcontroller] at hstep
    simp only at hstep
    split at hstep
    · obtain ⟨w, hw, rfl⟩ := Option.map_eq_some_iff.mp hstep
      exact h.keep hs (Or.inr (Or.inr ⟨i + 1, rfl⟩)) rfl rfl
    · obtain rfl := Option.some.inj hstep
      exact h.keep hs (Or.inr (Or.inl rfl)) rfl rfl
  | stopping i =>
    have hbefore := h.stopping i hcontroller
    rw [hcontroller] at hstep
    simp only at hstep
    split at hstep
    · obtain rfl := Option.some.inj hstep
      refine ⟨nofun, ?_, ?_⟩
      · intro j hj
        obtain rfl := ControllerPc.joining.inj hj
        refine ⟨fun k hk => hquiet k (hbefore k hk), ?_⟩
        show (Function.update e.workers i (e.workers i).stopRun i).run = false
        rw [Function.update_self]
        rfl
      · intro hdone j hj
        exact hquiet j (h.stopped hdone j hj)
    · next hend =>
      obtain rfl := Option.some.inj hstep
      refine ⟨nofun, nofun, ?_⟩
      intro _ j hj
      have hlt : j < i := by
        have hcount : j < e.threadCount := hj
        omega
      exact hbefore j hlt
  | joining i =>
    obtain ⟨hbefore, hrun⟩ := h.joining i hcontroller
    rw [hcontroller] at hstep
    obtain ⟨w, hw, rfl⟩ := Option.map_eq_some_iff.mp hstep
    refine ⟨?_, nofun, ?_⟩
    · intro j hj k hk
      obtain rfl := ControllerPc.stopping.inj hj
      by_cases hki : k = i
      · subst hki
        show (Function.update e.workers k w k).Quiet
        rw [Function.update_self]
        exact (Worker.quiet_of_join hrun hw).1
      · exact hquiet k (hbefore k (by omega))
    · intro hdone j hj
      exact hquiet j (h.stopped hdone j hj)

theorem Stops.step {a : Action U} (h : e.Stops) (hs : e.step a = some e') : e'.Stops := by
  have hstep := hs
  cases a with
  | addExecutionUnit workerId unit =>
    simp only [ExecutionEngine.step] at hstep
    split at hstep
    · split at hstep
      · obtain rfl := Option.some.inj hstep
        exact h.keep hs (Or.inl rfl) rfl rfl
      · split at hstep <;> obtain rfl := Option.some.inj hstep
        · exact h.keep hs (Or.inl rfl) rfl rfl
        · exact h.keep hs (Or.inl rfl) rfl rfl
    · cases hstep
  | start =>
    simp only [ExecutionEngine.step] at hstep
    split at hstep
    · obtain rfl := Option.some.inj hstep
      exact h.keep hs (Or.inr (Or.inr ⟨0, rfl⟩)) rfl rfl
    · cases hstep
  | stop =>
    simp only [ExecutionEngine.step] at hstep
    split at hstep
    · obtain rfl := Option.some.inj hstep
      refine ⟨?_, nofun, h.stopped⟩
      intro i hi j hj
      obtain rfl := ControllerPc.stopping.inj hi
      exact absurd hj (Nat.not_lt_zero j)
    · cases hstep
  | controller => exact h.controller hs
  | worker workerId busy parking =>
    obtain ⟨w, hw, rfl⟩ := Option.map_eq_some_iff.mp hstep
    exact h.keep hs (Or.inl rfl) rfl rfl

/-- **After `Stop` nothing is dispatched any more**: whatever is called and
whatever the threads do, started again or not; and every round was finished. -/
theorem stopped_for_good {threadCount : Nat} {as bs : List (Action U)}
    (h : Lts.exec step (new threadCount) as = some e) (hstopped : e.stopped = true)
    (hlater : Lts.exec step e bs = some e') {i : Nat} (hi : i < threadCount) :
    (e'.workers i).dispatched = (e.workers i).rounds.flatten := by
  have hinv : ((∀ i, (e.workers i).Ok) ∧ e.Stops) ∧ e.threadCount = threadCount :=
    Lts.exec_invariant
      (I := fun e : ExecutionEngine U =>
        ((∀ i, (e.workers i).Ok) ∧ e.Stops) ∧ e.threadCount = threadCount)
      (fun _ _ _ hi hs =>
        ⟨⟨ok_step hi.1.1 hs, hi.1.2.step hs⟩, (step_touches hs).1.trans hi.2⟩)
      ⟨⟨fun _ => Worker.ok_new, stops_new threadCount⟩, rfl⟩ h
  obtain ⟨⟨hok, hstops⟩, hcount⟩ := hinv
  have hquiet := hstops.stopped hstopped i (hcount ▸ hi)
  have hkept : (e'.workers i).Quiet ∧ (e'.workers i).dispatched = (e.workers i).dispatched := by
    refine Lts.exec_invariant
      (I := fun f : ExecutionEngine U =>
        (f.workers i).Quiet ∧ (f.workers i).dispatched = (e.workers i).dispatched)
      (fun _ _ _ hi hs => ?_) ⟨hquiet, rfl⟩ hlater
    obtain ⟨hq, hd⟩ := quiet_step hi.1 hs
    exact ⟨hq, hd.trans hi.2⟩
  rw [hkept.2, Worker.dispatched, hquiet.current (hok i), List.append_nil]

/-! ### The engine of the system: one worker sends, the other one receives -/

inductive Dispatcher
  | msgrcSend
  | msgrcRecv
  deriving DecidableEq, Repr

def exampleInit : List (Action Dispatcher) :=
  [.addExecutionUnit 0 .msgrcSend, .addExecutionUnit 1 .msgrcRecv, .start, .controller,
    .controller, .controller]

/-- The sender is in its second round when it is told to stop. -/
def exampleRounds : List (Action Dispatcher) :=
  [.worker 0 true .spin, .worker 0 true .spin, .worker 1 false .spin, .worker 0 true .spin,
    .worker 0 false .spin, .stop, .controller, .worker 0 false .spin, .worker 0 false .yield,
    .worker 0 false .spin, .controller, .controller, .worker 1 false .spin,
    .worker 1 false .spin, .worker 1 false .spin, .controller, .controller]

theorem rounds_in_order_example :
    ∃ e : ExecutionEngine Dispatcher,
      Lts.exec step (new 2) (exampleInit ++ exampleRounds) = some e ∧
        (∀ round ∈ (e.workers 0).rounds, round.map Prod.fst = (e.workers 0).executionUnits) ∧
        (e.workers 0).activeCounter = 1 ∧ (e.workers 0).idleCounter = 1 := by
  obtain ⟨e, he, hactive, hidle⟩ : ∃ e : ExecutionEngine Dispatcher,
      Lts.exec step (new 2) (exampleInit ++ exampleRounds) = some e ∧
        (e.workers 0).activeCounter = 1 ∧ (e.workers 0).idleCounter = 1 := ⟨_, rfl, rfl, rfl⟩
  exact ⟨e, he, (rounds_in_order he 0).1, hactive, hidle⟩

theorem stopped_for_good_example :
    ∃ e e' : ExecutionEngine Dispatcher,
      Lts.exec step (new 2) (exampleInit ++ exampleRounds) = some e ∧
        Lts.exec step e [.start, .controller, .worker 0 true .spin] = some e' ∧
        (e'.workers 0).dispatched = (e.workers 0).rounds.flatten := by
  obtain ⟨e, e', he, hstopped, he'⟩ : ∃ e e' : ExecutionEngine Dispatcher,
      Lts.exec step (new 2) (exampleInit ++ exampleRounds) = some e ∧ e.stopped = true ∧
        Lts.exec step e [.start, .controller, .worker 0 true .spin] = some e' :=
    ⟨_, _, rfl, rfl, rfl⟩
  exact ⟨e, e', he, he', stopped_for_good he hstopped he' (by decide)⟩

end ExecutionEngine

end Ibdxnet.Dx
