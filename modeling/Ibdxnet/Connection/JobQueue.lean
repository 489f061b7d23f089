import Ibdxnet.Lib.Lts
import Ibdxnet.Lib.Ring

/-!
# The job queue

`con::JobQueue`, called by one thread.  Front, back and the reserved back are
free running 32 bit counters, and each test takes them modulo the size by
itself.  The full test reads `backRes + 1 % m_size == front % m_size`, which is
`backRes + 1 == front % m_size`, so it is of use only where the counters happen
to stand right.

A queue *represents* a list of jobs when the positions from the front up to and
including the back are in different slots, and the jobs are in them:

    isEmpty               ↔  jobs = []
    popFront              =  the first job
    pushBack              appends the job, if it leaves all positions different

A push is `Sound` by where the front stands, how many jobs are pending and what
the size leaves of the range of the counters.  The sound pushes are those that
answer right and leave the positions in different slots (`Fifo.sound_iff`).
Along sound calls the queue is a first in, first out queue of `size - 1` places
(`fifo_of_sound`); the first `size` jobs pushed fill it until it looks empty
(`full_not_noticed`).
-/

namespace Ibdxnet.Con

open Ring

/-- What is stored when `x` is written to an `uint32_t`. -/
def uint32 (x : Nat) : Nat := x % 2 ^ 32

structure JobQueue (α : Type*) where
  size : Nat
  front : Nat
  back : Nat
  backRes : Nat
  queue : Nat → Option α

namespace JobQueue

variable {α : Type*}

def new (size : UInt32) : JobQueue α where
  size := size.toNat
  front := 0
  back := 0
  backRes := 0
  queue := fun _ => none

/-- `PushBack`: whether the job was added.  A thread by itself succeeds with
both of its compare exchanges. -/
def pushBack (q : JobQueue α) (job : α) : JobQueue α × Bool :=
  if uint32 (q.backRes + 1 % q.size) = q.front % q.size then
    (q, false)
  else
    ({ q with
      backRes := uint32 (q.backRes + 1)
      queue := Function.update q.queue (q.backRes % q.size) (some job)
      back := uint32 (q.back + 1) }, true)

/-- `PopFront`, with `none` for the null pointer -/
def popFront (q : JobQueue α) : JobQueue α × Option α :=
  if q.front % q.size = q.back % q.size then
    (q, none)
  else
    ({ q with front := uint32 (q.front + 1) }, q.queue (q.front % q.size))

def isEmpty (q : JobQueue α) : Bool := q.front % q.size == q.back % q.size

/-! ## The jobs a queue holds -/

/-- The slot of the position `i` places behind the front. -/
def slot (q : JobQueue α) (i : Nat) : Nat := uint32 (q.front + i) % q.size

/-- The positions from the front to `n` places behind it are in different slots. -/
def Distinct (q : JobQueue α) (n : Nat) : Prop :=
  ∀ i j, i < j → j ≤ n → q.slot i ≠ q.slot j

structure Represents (q : JobQueue α) (jobs : List α) : Prop where
  front : q.front < 2 ^ 32
  back : q.back = uint32 (q.front + jobs.length)
  backRes : q.backRes = q.back
  room : jobs.length < q.size
  distinct : q.Distinct jobs.length
  jobs : window (fun c => q.queue (c % q.size)) (2 ^ 32) q.front jobs.length = jobs.map some

variable {q : JobQueue α} {jobs : List α}

theorem represents_new (size : UInt32) (hsize : 2 ≤ size) :
    (new size : JobQueue α).Represents [] where
  front := Nat.two_pow_pos 32
  back := rfl
  backRes := rfl
  room := by
    have := UInt32.le_iff_toNat_le.mp hsize
    simp only [new, List.length_nil]
    exact Nat.lt_of_lt_of_le (by decide) this
  distinct := fun i j hij hj => absurd hij (by simp at hj; omega)
  jobs := rfl

theorem Represents.slot_zero (h : q.Represents jobs) : q.slot 0 = q.front % q.size := by
  simp only [slot, uint32, Nat.add_zero, Nat.mod_eq_of_lt h.front]

theorem Represents.slot_length (h : q.Represents jobs) :
    q.slot jobs.length = q.back % q.size := by
  rw [h.back]
  rfl

theorem Represents.isEmpty_iff (h : q.Represents jobs) : q.isEmpty = true ↔ jobs = [] := by
  rw [isEmpty, beq_iff_eq, ← h.slot_zero, ← h.slot_length]
  constructor
  · intro heq
    by_contra hne
    exact h.distinct 0 jobs.length (List.length_pos_of_ne_nil hne) (Nat.le_refl _) heq
  · rintro rfl
    rfl

/-- Positions are counted from the front, which a pop moves on. -/
theorem slot_succ (q : JobQueue α) (i : Nat) :
    ({ q with front := uint32 (q.front + 1) } : JobQueue α).slot i = q.slot (i + 1) := by
  simp only [slot, uint32, Nat.mod_add_mod, Nat.add_assoc, Nat.add_comm 1 i]

theorem Represents.popFront_nil (h : q.Represents []) : q.popFront = (q, none) := by
  have hempty := h.isEmpty_iff.mpr rfl
  rw [isEmpty, beq_iff_eq] at hempty
  rw [popFront, if_pos hempty]

theorem Represents.popFront_cons {job : α} (h : q.Represents (job :: jobs)) :
    q.popFront.2 = some job ∧ q.popFront.1.Represents jobs := by
  have hempty : ¬ q.front % q.size = q.back % q.size := by
    rw [← beq_iff_eq, ← isEmpty, h.isEmpty_iff]
    exact List.cons_ne_nil job jobs
  have hwindow := h.jobs
  simp only [List.length_cons, window_succ, List.map_cons, List.cons.injEq,
    Nat.mod_eq_of_lt h.front] at hwindow
  rw [popFront, if_neg hempty]
  refine ⟨hwindow.1, Nat.mod_lt _ (by decide), ?_, h.backRes, ?_, ?_, ?_⟩
  · rw [h.back]
    simp only [uint32, List.length_cons, Nat.mod_add_mod]
    congr 1
    omega
  · exact Nat.lt_of_succ_lt h.room
  · intro i j hij hj
    rw [slot_succ, slot_succ]
    exact h.distinct (i + 1) (j + 1) (by omega) (by simpa using hj)
  · rw [← hwindow.2]
    exact window_mod ..

/-- A job pushed into a slot that keeps the positions different. -/
theorem Represents.push (h : q.Represents jobs) (job : α) (hroom : jobs.length + 1 < q.size)
    (hdistinct : q.Distinct (jobs.length + 1)) :
    Represents
      { q with
        backRes := uint32 (q.backRes + 1)
        queue := Function.update q.queue (q.backRes % q.size) (some job)
        back := uint32 (q.back + 1) } (jobs ++ [job]) where
  front := h.front
  back := by
    rw [h.back]
    simp [uint32, Nat.add_assoc]
  backRes := by rw [h.backRes]
  room := by simpa using hroom
  distinct := by
    rw [List.length_append, List.length_singleton]
    exact hdistinct
  jobs := by
    have hslot : q.backRes % q.size = q.slot jobs.length := by rw [h.backRes, h.slot_length]
    rw [List.length_append, List.length_singleton, window_succ_last, List.map_append]
    congr 1
    · rw [← h.jobs]
      apply window_congr
      intro i hi
      apply Function.update_of_ne
      rw [hslot]
      exact h.distinct i jobs.length hi (Nat.le_refl _)
    · rw [hslot]
      simp [slot, uint32]

/-! ## Counters that wrap around

The front is `f`, and `p` positions behind it are in use. -/

theorem uint32_of_lt {x : Nat} (h : x < 2 ^ 32) : uint32 x = x := Nat.mod_eq_of_lt h

theorem uint32_of_ge {x : Nat} (h : 2 ^ 32 ≤ x) (h' : x < 2 ^ 32 + 2 ^ 32) :
    uint32 x = x - 2 ^ 32 := by
  rw [uint32, Nat.mod_eq_sub_mod h, Nat.mod_eq_of_lt (by omega)]

/-- Two positions on both sides of the wrap around are in one slot where what
the size leaves of the range is between them. -/
theorem slot_eq_iff {n a b d : Nat} (hd : d < n) (hab : a + d = 2 ^ 32 + b) :
    a % n = b % n ↔ d = 2 ^ 32 % n := by
  have hsum : a + d ≡ b + 2 ^ 32 [MOD n] := by rw [hab, Nat.add_comm]
  have hmod : d ≡ 2 ^ 32 [MOD n] ↔ d = 2 ^ 32 % n := by rw [Nat.ModEq, Nat.mod_eq_of_lt hd]
  rw [← hmod]
  constructor
  · intro h
    have h : a ≡ b [MOD n] := h
    exact Nat.ModEq.add_left_cancel h hsum
  · intro h
    exact Nat.ModEq.add_right_cancel h hsum

/-- The full test with all places but one in use: it is right where the size
divides the range of the counters and the front is in its last lap. -/
theorem full_test_iff {n f p : Nat} (hf : f < 2 ^ 32) (hn : n < 2 ^ 32) (hp : p + 1 = n) :
    uint32 (f + p + 1) = f % n ↔ n ∣ 2 ^ 32 ∧ 2 ^ 32 ≤ f + n := by
  have hlt := Nat.mod_lt f (show 0 < n by omega)
  rw [show f + p + 1 = f + n by omega]
  rcases Nat.lt_or_ge (f + n) (2 ^ 32) with hno | hwrap
  · rw [uint32_of_lt hno]
    omega
  · have hslot : f % n = (f + n - 2 ^ 32) % n ↔ 0 = 2 ^ 32 % n := by
      rw [← Nat.add_mod_right f n]
      exact slot_eq_iff (by omega) (by omega)
    rw [Nat.mod_eq_of_lt (show f + n - 2 ^ 32 < n by omega)] at hslot
    rw [uint32_of_ge hwrap (by omega), eq_comm, hslot, Nat.dvd_iff_mod_eq_zero, eq_comm]
    exact (and_iff_left hwrap).symm

/-- The position behind the last one is in a slot of its own. -/
theorem free_slot_iff {n f p : Nat} (hf : f < 2 ^ 32) (hn : n < 2 ^ 32) (hp : p + 1 < n) :
    (∀ i, i ≤ p → uint32 (f + i) % n ≠ uint32 (f + p + 1) % n) ↔
      f + p + 1 < 2 ^ 32 ∨ p + 1 < 2 ^ 32 % n ∨ 2 ^ 32 + 2 ^ 32 % n ≤ f + p + 1 := by
  have hr := Nat.mod_lt (2 ^ 32) (show 0 < n by omega)
  rcases Nat.lt_or_ge (f + p + 1) (2 ^ 32) with hno | hwrap
  · refine iff_of_true (fun i hi heq => ?_) (Or.inl hno)
    rw [uint32_of_lt hno, uint32_of_lt (by omega)] at heq
    have := eq_of_mod_eq (show f + i ≤ f + p + 1 by omega) (by omega) heq
    omega
  · have hlast := uint32_of_ge hwrap (by omega)
    -- positions behind the wrap around are less than a lap apart
    have hbehind : ∀ i, i ≤ p → 2 ^ 32 ≤ f + i →
        uint32 (f + i) % n ≠ uint32 (f + p + 1) % n := by
      intro i hi hge heq
      rw [hlast, uint32_of_ge hge (by omega)] at heq
      have := eq_of_mod_eq (show f + i - 2 ^ 32 ≤ f + p + 1 - 2 ^ 32 by omega) (by omega) heq
      omega
    have hbefore : ∀ i, i ≤ p → f + i < 2 ^ 32 →
        (uint32 (f + i) % n = uint32 (f + p + 1) % n ↔ p + 1 - i = 2 ^ 32 % n) := by
      intro i hi hlt
      rw [hlast, uint32_of_lt hlt]
      exact slot_eq_iff (by omega) (by omega)
    constructor
    · intro hfree
      by_contra hcond
      refine hfree (p + 1 - 2 ^ 32 % n) (by omega) ?_
      exact (hbefore _ (by omega) (by omega)).mpr (by omega)
    · intro hcond i hi heq
      rcases Nat.lt_or_ge (f + i) (2 ^ 32) with hlt | hge
      · have := (hbefore i hi hlt).mp heq
        omega
      · exact hbehind i hi hge heq

/-! ## Runs -/

/-- A queue with the jobs it took and the jobs it gave out. -/
structure History (α : Type*) where
  queue : JobQueue α
  accepted : List α
  popped : List α

inductive Call (α : Type*)
  | pushBack (job : α)
  | popFront

namespace History

def init (size : UInt32) : History α where
  queue := new size
  accepted := []
  popped := []

def step (h : History α) : Call α → Option (History α)
  | .pushBack job =>
    let (queue, added) := h.queue.pushBack job
    some { h with queue, accepted := if added then h.accepted ++ [job] else h.accepted }
  | .popFront =>
    let (queue, job) := h.queue.popFront
    some { h with queue, popped := h.popped ++ job.toList }

/-- The number of jobs that were taken and not given out. -/
def numPending (h : History α) : Nat := h.accepted.length - h.popped.length

/-- Where a push works.  With `size - 1` jobs pending the size divides the range
of the counters and the front is in its last lap; with fewer the counters do not
wrap around at the new job, or not by as many places as the size leaves of
their range. -/
def Sound (h : History α) : Call α → Prop
  | .pushBack _ =>
    h.numPending + 1 = h.queue.size ∧ h.queue.size ∣ 2 ^ 32 ∧
        2 ^ 32 ≤ h.queue.front + h.queue.size ∨
      h.numPending + 1 < h.queue.size ∧
        (h.queue.front + h.numPending + 1 < 2 ^ 32 ∨
          h.numPending + 1 < 2 ^ 32 % h.queue.size ∨
          2 ^ 32 + 2 ^ 32 % h.queue.size ≤ h.queue.front + h.numPending + 1)
  | .popFront => True

instance (h : History α) : ∀ c, Decidable (h.Sound c)
  | .pushBack _ => inferInstanceAs (Decidable (_ ∨ _))
  | .popFront => isTrue trivial

/-- What a queue of `size - 1` places answers: a push is refused exactly when
all places are taken, and then changes nothing, and a pop gives out the oldest
job that was not given out yet. -/
def Right (size : UInt32) (h : History α) : Call α → Prop
  | .pushBack job =>
    ((h.queue.pushBack job).2 = false ↔ h.numPending + 1 = size.toNat) ∧
      ((h.queue.pushBack job).2 = false → (h.queue.pushBack job).1 = h.queue)
  | .popFront => h.queue.popFront.2 = h.accepted[h.popped.length]?

/-- The jobs taken are those given out and those the queue holds. -/
structure Fifo (size : UInt32) (h : History α) (pending : List α) : Prop where
  size : h.queue.size = size.toNat
  accepted : h.accepted = h.popped ++ pending
  queue : h.queue.Represents pending

variable {size : UInt32} {h h' : History α} {pending : List α}

theorem Fifo.numPending (hf : Fifo size h pending) : h.numPending = pending.length := by
  rw [History.numPending, hf.accepted, List.length_append, Nat.add_sub_cancel_left]

/-- The full test is of `backRes + 1`, not of its slot. -/
theorem Fifo.refused_iff (hf : Fifo size h pending) (hsize : 2 ≤ size) (job : α) :
    (h.queue.pushBack job).2 = false ↔
      uint32 (h.queue.front + pending.length + 1) = h.queue.front % size.toNat := by
  have hone : 1 % h.queue.size = 1 := by
    have := UInt32.le_iff_toNat_le.mp hsize
    rw [hf.size]
    exact Nat.mod_eq_of_lt (Nat.lt_of_lt_of_le (by decide) this)
  have hnext : uint32 (h.queue.backRes + 1) = uint32 (h.queue.front + pending.length + 1) := by
    rw [hf.queue.backRes, hf.queue.back]
    simp [uint32]
  rw [JobQueue.pushBack, hone, hnext, hf.size]
  split
  · exact iff_of_true rfl ‹_›
  · exact iff_of_false (by simp) ‹_›

/-- A push that is refused changes nothing. -/
theorem pushBack_refused {q : JobQueue α} {job : α} (h : (q.pushBack job).2 = false) :
    (q.pushBack job).1 = q := by
  rw [JobQueue.pushBack] at h ⊢
  split at h
  · rw [if_pos ‹_›]
  · cases h

theorem step_refused {job : α} (h' : (h.queue.pushBack job).2 = false) :
    h.step (.pushBack job) = some h := by
  simp only [History.step, h', pushBack_refused h']
  rfl

/-- An accepted job leaves a first in, first out queue exactly where its slot is
free. -/
theorem Fifo.accepted_iff (hf : Fifo size h pending) {job : α}
    (hroom : pending.length + 1 < size.toNat) (hadded : ¬ (h.queue.pushBack job).2 = false) :
    (∀ h', h.step (.pushBack job) = some h' → ∃ pending', Fifo size h' pending') ↔
      ∀ i, i ≤ pending.length → h.queue.slot i ≠ h.queue.slot (pending.length + 1) := by
  have htest : ¬ uint32 (h.queue.backRes + 1 % h.queue.size) = h.queue.front % h.queue.size := by
    intro htest
    rw [JobQueue.pushBack, if_pos htest] at hadded
    exact hadded rfl
  simp only [History.step, JobQueue.pushBack, if_neg htest, if_pos, Option.some.injEq,
    forall_eq']
  constructor
  · rintro ⟨pending', hf'⟩ i hi
    have hpending : pending' = pending ++ [job] := by
      have := hf'.accepted
      rw [hf.accepted, List.append_assoc] at this
      exact (List.append_cancel_left this).symm
    refine hf'.queue.distinct i (pending.length + 1) (by omega) ?_
    rw [hpending, List.length_append, List.length_singleton]
  · intro hfree
    refine ⟨pending ++ [job], hf.size, by simp [hf.accepted], ?_⟩
    refine hf.queue.push job (hf.size ▸ hroom) fun i j hij hj => ?_
    rcases Nat.lt_or_eq_of_le hj with hj | rfl
    · exact hf.queue.distinct i j hij (Nat.le_of_lt_succ hj)
    · exact hfree i (Nat.le_of_lt_succ hij)

/-- **The sound pushes** are those that answer right and leave a first in, first
out queue. -/
theorem Fifo.sound_iff (hf : Fifo size h pending) (hsize : 2 ≤ size) (job : α) :
    h.Sound (.pushBack job) ↔ h.Right size (.pushBack job) ∧
      ∀ h', h.step (.pushBack job) = some h' → ∃ pending', Fifo size h' pending' := by
  have hlt := hf.queue.room
  rw [hf.size] at hlt
  have hrefused := hf.refused_iff hsize job
  rw [Sound, Right, hf.numPending, hf.size]
  rcases Nat.lt_or_eq_of_le (Nat.succ_le_of_lt hlt) with hroom | hfull
  · have hfree := free_slot_iff hf.queue.front size.toNat_lt hroom
    rw [← hf.size] at hfree
    rw [or_iff_right (fun h => absurd h.1 (by omega)), and_iff_right hroom,
      iff_false_right (show ¬ pending.length + 1 = size.toNat by omega), ← hf.size, ← hfree]
    constructor
    · intro hfree
      -- the slot of the front is one of those in use
      have hadded : ¬ (h.queue.pushBack job).2 = false := by
        rw [hrefused, ← hf.size]
        intro heq
        refine hfree 0 (Nat.zero_le _) ?_
        rw [heq, Nat.mod_mod, uint32, Nat.add_zero, Nat.mod_eq_of_lt hf.queue.front]
      exact ⟨⟨hadded, fun h => absurd h hadded⟩,
        (hf.accepted_iff hroom hadded).mpr hfree⟩
    · rintro ⟨⟨hadded, -⟩, hnext⟩
      exact (hf.accepted_iff hroom hadded).mp hnext
  · rw [or_iff_left (fun h => absurd h.1 (by omega)), and_iff_right hfull, iff_true_right hfull,
      ← full_test_iff hf.queue.front size.toNat_lt hfull, ← hrefused]
    constructor
    · intro h'
      refine ⟨⟨h', fun _ => pushBack_refused h'⟩, fun h'' hstep => ?_⟩
      rw [step_refused h', Option.some.injEq] at hstep
      exact ⟨pending, hstep ▸ hf⟩
    · exact fun h => h.1.1

/-- **Every sound call keeps the queue first in, first out.** -/
theorem Fifo.step (hf : Fifo size h pending) (hsize : 2 ≤ size) {c : Call α} (hs : h.Sound c)
    (h' : History α) (hstep : h.step c = some h') : ∃ pending', Fifo size h' pending' := by
  cases c with
  | pushBack job => exact ((hf.sound_iff hsize job).mp hs).2 h' hstep
  | popFront =>
    simp only [History.step, Option.some.injEq] at hstep
    subst hstep
    cases pending with
    | nil =>
      rw [hf.queue.popFront_nil]
      exact ⟨[], hf.size, by simpa using hf.accepted, hf.queue⟩
    | cons job pending =>
      obtain ⟨hjob, hqueue⟩ := hf.queue.popFront_cons
      refine ⟨pending, ?_, ?_, hqueue⟩
      · rw [← hf.size, JobQueue.popFront]
        split <;> rfl
      · rw [hjob, hf.accepted]
        simp

theorem Fifo.popFront (hf : Fifo size h pending) : h.queue.popFront.2 = pending.head? := by
  cases pending with
  | nil => rw [hf.queue.popFront_nil]; rfl
  | cons job pending => exact hf.queue.popFront_cons.1

theorem Fifo.right (hf : Fifo size h pending) (hsize : 2 ≤ size) {c : Call α} (hs : h.Sound c) :
    h.Right size c := by
  cases c with
  | pushBack job => exact ((hf.sound_iff hsize job).mp hs).1
  | popFront =>
    rw [Right, hf.popFront, hf.accepted, List.getElem?_append_right (Nat.le_refl _),
      Nat.sub_self, List.head?_eq_getElem?]

theorem fifo_init (hsize : 2 ≤ size) : Fifo size (init size : History α) [] where
  size := rfl
  accepted := rfl
  queue := represents_new size hsize

/-- **The job queue is a bounded first in, first out queue along sound calls.** -/
theorem fifo_of_sound (hsize : 2 ≤ size) {calls : List (Call α)}
    (hrun : Lts.exec step (init size) calls = some h)
    (hsound : Lts.Along step Sound (init size) calls) :
    Lts.Along step (Right size) (init size) calls ∧
      ∃ pending, h.accepted = h.popped ++ pending ∧ pending.length < size.toNat ∧
        h.queue.popFront.2 = pending.head? ∧ (h.queue.isEmpty = true ↔ pending = []) := by
  have hkeeps : ∀ (h : History α) c h', (∃ pending, Fifo size h pending) → h.Sound c →
      h.step c = some h' → ∃ pending, Fifo size h' pending :=
    fun h c h' ⟨_, hf⟩ hs hstep => hf.step hsize hs h' hstep
  have hinit : ∃ pending, Fifo size (init size : History α) pending := ⟨[], fifo_init hsize⟩
  refine ⟨hsound.imp (fun h c ⟨_, hf⟩ hs => hf.right hsize hs) hkeeps hinit, ?_⟩
  obtain ⟨pending, hf⟩ := Lts.exec_invariant_along hkeeps hinit hsound hrun
  have hroom := hf.queue.room
  rw [hf.size] at hroom
  exact ⟨pending, hf.accepted, hroom, hf.popFront, hf.queue.isEmpty_iff⟩

/-- A queue of three places. -/
theorem fifo_of_sound_three :
    ∃ h : History Nat,
      Lts.exec step (init 3) [.pushBack 5, .pushBack 7, .popFront] = some h ∧
      Lts.Along step (Right 3) (init 3 : History Nat) [.pushBack 5, .pushBack 7, .popFront] ∧
      ∃ pending, h.accepted = h.popped ++ pending ∧ pending.length < UInt32.toNat 3 ∧
        h.queue.popFront.2 = pending.head? := by
  obtain ⟨hright, pending, haccepted, hroom, hhead, -⟩ := fifo_of_sound
    (show 2 ≤ (3 : UInt32) by decide)
    (show Lts.exec step (init 3 : History Nat) [.pushBack 5, .pushBack 7, .popFront] = some _
      from rfl) (by decide)
  exact ⟨_, rfl, hright, pending, haccepted, hroom, hhead⟩

/-- Where the size divides the range of the counters, as the 1024 places of the
job manager do, every push into a queue that is not full is sound. -/
theorem sound_iff_of_dvd (hdvd : h.queue.size ∣ 2 ^ 32) (hroom : h.numPending < h.queue.size)
    (job : α) :
    h.Sound (.pushBack job) ↔
      h.numPending + 1 < h.queue.size ∨ 2 ^ 32 ≤ h.queue.front + h.queue.size := by
  rw [Sound, Nat.dvd_iff_mod_eq_zero.mp hdvd]
  constructor
  · rintro (⟨-, -, hlast⟩ | ⟨hlt, -⟩)
    · exact Or.inr hlast
    · exact Or.inl hlt
  · rintro (hlt | hlast)
    · exact Or.inr ⟨hlt, by omega⟩
    · rcases Nat.lt_or_eq_of_le (Nat.succ_le_of_lt hroom) with hlt | hfull
      · exact Or.inr ⟨hlt, by omega⟩
      · exact Or.inl ⟨hfull, hdvd, hlast⟩

/-- `size` jobs are taken by a new queue, which then looks empty. -/
theorem full_not_noticed :
    ∃ h h' : History Nat, Lts.exec step (init 2) [.pushBack 0] = some h ∧ h.numPending + 1 = 2 ∧
      (h.queue.pushBack 1).2 = true ∧ Lts.exec step (init 2) [.pushBack 0, .pushBack 1] = some h' ∧
      h'.numPending = 2 ∧ h'.queue.isEmpty = true ∧ h'.queue.popFront.2 = none := by
  refine ⟨_, _, rfl, ?_, ?_, rfl, ?_, ?_, ?_⟩ <;> decide

end History

end JobQueue

end Ibdxnet.Con
