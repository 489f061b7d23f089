import Ibdxnet.Connection.JobQueue

/-!
# The job queue, one atomic access at a time

`PushBack` of any number of threads and `PopFront` of the job thread, as a
transition function whose actions are the single loads, compare exchanges and
slot accesses.  A call keeps its locals in its program counter.

A push reserves a position, writes its slot and publishes it.  The loop that is
to wait until the positions before it are published is

    while (!m_back.compare_exchange_weak(backRes, backRes + 1)) yield();

and a failed attempt stores `m_back` into `backRes`, so the next one succeeds
from the position of another thread.  `casBack` carries next to `backRes` the
position the thread has reserved, which the code does not keep.

Where each thread publishes its own position (`PublishedInTurn`), and the
pending jobs and the position behind them are in different slots (`Roomy`),

    popped = reservations.take popped.length     (popped_in_order)

and no job is lost on the way.  With a size that divides the range of the
counters `Roomy` says only that fewer than size jobs are pending
(`inOrder_of_dvd`).
-/

namespace Ibdxnet.Con

namespace JobQueue

/-- Where a thread is in `PushBack`. -/
inductive PushPc (α : Type*)
  | idle
  | loadBackRes (job : α)
  | loadFront (job : α) (backRes : Nat)
  | casBackRes (job : α) (backRes : Nat)
  | writeSlot (job : α) (backRes : Nat)
  | casBack (backRes reserved : Nat)

/-- The next access reserves a position, when the reserved back is this. -/
def PushPc.Reserves {α : Type*} : PushPc α → Nat → Prop
  | .casBackRes _ backRes, current => current = backRes
  | _, _ => False

/-- A publishing compare exchange that succeeds starts from the thread's own
reservation. -/
def PushPc.PublishesOwn {α : Type*} : PushPc α → Nat → Prop
  | .casBack backRes reserved, back => back = backRes → backRes = reserved
  | _, _ => True

instance PushPc.Reserves.instDecidable {α : Type*} :
    ∀ (pc : PushPc α) (current : Nat), Decidable (pc.Reserves current)
  | .casBackRes _ backRes, current => inferInstanceAs (Decidable (current = backRes))
  | .idle, _ | .loadBackRes _, _ | .loadFront _ _, _ | .writeSlot _ _, _ | .casBack _ _, _ =>
    isFalse id

instance PushPc.PublishesOwn.instDecidable {α : Type*} :
    ∀ (pc : PushPc α) (back : Nat), Decidable (pc.PublishesOwn back)
  | .casBack backRes reserved, back =>
    inferInstanceAs (Decidable (back = backRes → backRes = reserved))
  | .idle, _ | .loadBackRes _, _ | .loadFront _ _, _ | .casBackRes _ _, _ | .writeSlot _ _, _ =>
    isTrue trivial

/-- Where the job thread is in `PopFront`. -/
inductive PopPc (α : Type*)
  | idle
  | loadFront
  | loadBack (front : Nat)
  | readSlot (front : Nat)
  | fetchAdd (job : Option α)

/-- The queue, its threads, and what was done with it. -/
structure QueueSystem (Tid α : Type*) where
  queue : JobQueue α
  consumer : PopPc α
  producers : Tid → PushPc α
  /-- the jobs in the order their positions were reserved in -/
  reservations : List α
  /-- what `PopFront` returned, `none` from a slot nothing was written to -/
  popped : List (Option α)

inductive QueueAction (Tid α : Type*)
  /-- thread `t` calls `PushBack` -/
  | pushBack (t : Tid) (job : α)
  /-- thread `t`'s next access; a weak compare exchange may fail for no reason -/
  | produce (t : Tid) (spurious : Bool)
  /-- the job thread calls `PopFront` -/
  | popFront
  /-- the job thread's next access -/
  | consume

namespace QueueSystem

variable {Tid α : Type*} [DecidableEq Tid]

/-! ## Algorithm -/

def init (size : UInt32) : QueueSystem Tid α where
  queue := new size
  consumer := .idle
  producers _ := .idle
  reservations := []
  popped := []

def setProducer (w : QueueSystem Tid α) (t : Tid) (pc : PushPc α) : QueueSystem Tid α :=
  { w with producers := Function.update w.producers t pc }

/-- One access of thread `t` in `PushBack`. -/
def producerStep (w : QueueSystem Tid α) (t : Tid) (spurious : Bool) :
    Option (QueueSystem Tid α) :=
  match w.producers t with
  | .idle => none
  | .loadBackRes job => some (w.setProducer t (.loadFront job w.queue.backRes))
  | .loadFront job backRes =>
    if uint32 (backRes + 1 % w.queue.size) = w.queue.front % w.queue.size then
      some (w.setProducer t .idle)
    else
      some (w.setProducer t (.casBackRes job backRes))
  | .casBackRes job backRes =>
    if w.queue.backRes = backRes ∧ spurious = false then
      some ({ w with
        queue := { w.queue with backRes := uint32 (backRes + 1) }
        reservations := w.reservations ++ [job] }.setProducer t (.writeSlot job backRes))
    else
      some (w.setProducer t (.loadFront job w.queue.backRes))
  | .writeSlot job backRes =>
    some ({ w with queue :=
      { w.queue with
        queue := Function.update w.queue.queue (backRes % w.queue.size) (some job) } }.setProducer t
          (.casBack backRes backRes))
  | .casBack backRes reserved =>
    if w.queue.back = backRes ∧ spurious = false then
      some ({ w with queue := { w.queue with back := uint32 (backRes + 1) } }.setProducer t .idle)
    else
      some (w.setProducer t (.casBack w.queue.back reserved))

/-- One access of the job thread in `PopFront`. -/
def consumerStep (w : QueueSystem Tid α) : Option (QueueSystem Tid α) :=
  match w.consumer with
  | .idle => none
  | .loadFront => some { w with consumer := .loadBack w.queue.front }
  | .loadBack front =>
    if front % w.queue.size = w.queue.back % w.queue.size then some { w with consumer := .idle }
    else some { w with consumer := .readSlot front }
  | .readSlot front =>
    some { w with consumer := .fetchAdd (w.queue.queue (front % w.queue.size)) }
  | .fetchAdd job =>
    some { w with
      queue := { w.queue with front := uint32 (w.queue.front + 1) }
      consumer := .idle
      popped := w.popped ++ [job] }

def step (w : QueueSystem Tid α) : QueueAction Tid α → Option (QueueSystem Tid α)
  | .pushBack t job =>
    match w.producers t with
    | .idle => some (w.setProducer t (.loadBackRes job))
    | _ => none
  | .produce t spurious => w.producerStep t spurious
  | .popFront =>
    match w.consumer with
    | .idle => some { w with consumer := .loadFront }
    | _ => none
  | .consume => w.consumerStep

/-! ## Conditions on a step -/

omit [DecidableEq Tid] in
/-- The jobs that are reserved and not popped. -/
def numPending (w : QueueSystem Tid α) : Nat := w.reservations.length - w.popped.length

omit [DecidableEq Tid] in
/-- Fewer than size jobs stay pending with one more, and the position behind it is
in a slot of its own. -/
def RoomBehind (w : QueueSystem Tid α) : Prop :=
  w.numPending + 1 < w.queue.size ∧
    ∀ i, i ≤ w.numPending → w.queue.slot i ≠ w.queue.slot (w.numPending + 1)

/-- A push that reserves a position has room behind it. -/
def Roomy (w : QueueSystem Tid α) : QueueAction Tid α → Prop
  | .produce t false => (w.producers t).Reserves w.queue.backRes → w.RoomBehind
  | _ => True

/-- A thread that moves the back moves it from the position it has reserved. -/
def PublishedInTurn (w : QueueSystem Tid α) : QueueAction Tid α → Prop
  | .produce t false => (w.producers t).PublishesOwn w.queue.back
  | _ => True

omit [DecidableEq Tid] in
instance RoomBehind.instDecidable (w : QueueSystem Tid α) : Decidable w.RoomBehind :=
  inferInstanceAs (Decidable (_ ∧ _))

instance Roomy.instDecidable (w : QueueSystem Tid α) : ∀ a, Decidable (w.Roomy a)
  | .produce t false =>
    inferInstanceAs (Decidable ((w.producers t).Reserves w.queue.backRes → w.RoomBehind))
  | .produce _ true | .pushBack _ _ | .popFront | .consume => isTrue trivial

instance PublishedInTurn.instDecidable (w : QueueSystem Tid α) :
    ∀ a, Decidable (w.PublishedInTurn a)
  | .produce t false => inferInstanceAs (Decidable ((w.producers t).PublishesOwn w.queue.back))
  | .produce _ true | .pushBack _ _ | .popFront | .consume => isTrue trivial

/-! ## Invariant

Front, back and reserved back are read off three counters `F ≤ B ≤ R` that never
wrap: the jobs popped, published and reserved.  Each position from `B` to `R` is
held by one thread, which has written its slot once it comes to publish it. -/

end QueueSystem

/-- The position a thread has reserved, as it stands in its local. -/
def PushPc.held {α : Type*} : PushPc α → Option Nat
  | .writeSlot _ backRes => some backRes
  | .casBack _ reserved => some reserved
  | _ => none

namespace QueueSystem

variable {Tid α : Type*}

/-- The slot of the `k`-th job reserved. -/
def slotAt (w : QueueSystem Tid α) (k : Nat) : Nat := uint32 k % w.queue.size

/-- The slot of the `k`-th job holds it. -/
def Stored (w : QueueSystem Tid α) (k : Nat) : Prop :=
  w.queue.queue (w.slotAt k) = w.reservations[k]?

/-- What the job thread has read is what stands at the front. -/
def ConsumerHolds (w : QueueSystem Tid α) (B : Nat) : PopPc α → Prop
  | .idle => True
  | .loadFront => True
  | .loadBack front => front = uint32 w.popped.length
  | .readSlot front => front = uint32 w.popped.length ∧ w.popped.length < B
  | .fetchAdd job => w.popped.length < B ∧ job = w.reservations[w.popped.length]?

structure Inv (w : QueueSystem Tid α) (B : Nat) (pos : Tid → Nat) : Prop where
  front_eq : w.queue.front = uint32 w.popped.length
  back_eq : w.queue.back = uint32 B
  backRes_eq : w.queue.backRes = uint32 w.reservations.length
  front_le_back : w.popped.length ≤ B
  back_le_backRes : B ≤ w.reservations.length
  distinct : ∀ i j, w.popped.length ≤ i → i < j → j ≤ w.reservations.length →
    w.slotAt i ≠ w.slotAt j
  stored : ∀ k, w.popped.length ≤ k → k < B → w.Stored k
  held : ∀ t n, (w.producers t).held = some n →
    n = uint32 (pos t) ∧ B ≤ pos t ∧ pos t < w.reservations.length
  writing : ∀ t job n, w.producers t = .writeSlot job n → w.reservations[pos t]? = some job
  written : ∀ t n r, w.producers t = .casBack n r → w.Stored (pos t)
  owned : ∀ k, B ≤ k → k < w.reservations.length →
    ∃ t, (w.producers t).held ≠ none ∧ pos t = k
  disjoint : ∀ t u, t ≠ u → (w.producers t).held ≠ none → (w.producers u).held ≠ none →
    pos t ≠ pos u
  consumer : w.ConsumerHolds B w.consumer
  popped : w.popped = (w.reservations.take w.popped.length).map some

variable {w w' : QueueSystem Tid α} {B : Nat} {pos : Tid → Nat}

theorem uint32_uint32_add (n : Nat) : uint32 (uint32 n + 1) = uint32 (n + 1) := by
  simp only [uint32, Nat.mod_add_mod]

section
variable [DecidableEq Tid] {t : Tid} {pc : PushPc α}

theorem setProducer_producers (w : QueueSystem Tid α) (t : Tid) (pc : PushPc α) (u : Tid) :
    (w.setProducer t pc).producers u = if u = t then pc else w.producers u := by
  simp only [setProducer, Function.update_apply]

/-- A thread moves on, and holds what it held. -/
theorem Inv.setProducer (h : w.Inv B pos) (hheld : pc.held = (w.producers t).held)
    (hwriting : ∀ job n, pc = .writeSlot job n → w.reservations[pos t]? = some job)
    (hwritten : ∀ n r, pc = .casBack n r → w.Stored (pos t)) :
    (w.setProducer t pc).Inv B pos := by
  have hsame : ∀ u, ((w.setProducer t pc).producers u).held = (w.producers u).held := by
    intro u
    rw [setProducer_producers]
    split
    · next hu => rw [hu, hheld]
    · rfl
  refine ⟨h.front_eq, h.back_eq, h.backRes_eq, h.front_le_back, h.back_le_backRes,
    h.distinct, h.stored, fun u n hu => ?_, fun u job n hu => ?_, fun u n r hu => ?_,
    fun k hB hR => ?_, fun u v huv hu hv => ?_, h.consumer, h.popped⟩
  · rw [hsame] at hu
    exact h.held u n hu
  · rw [setProducer_producers] at hu
    split at hu
    · next hut => exact hut ▸ hwriting job n hu
    · exact h.writing u job n hu
  · rw [setProducer_producers] at hu
    split at hu
    · next hut => exact hut ▸ hwritten n r hu
    · exact h.written u n r hu
  · obtain ⟨u, hu, hk⟩ := h.owned k hB hR
    exact ⟨u, by rwa [hsame], hk⟩
  · rw [hsame] at hu hv
    exact h.disjoint u v huv hu hv

/-- A thread that holds no position moves on. -/
theorem Inv.setProducer_of_held (h : w.Inv B pos) (ht : (w.producers t).held = none)
    (hpc : pc.held = none) : (w.setProducer t pc).Inv B pos := by
  refine h.setProducer (hpc.trans ht.symm) (fun job n heq => ?_) (fun n r heq => ?_)
  · rw [heq] at hpc
    cases hpc
  · rw [heq] at hpc
    cases hpc

omit [DecidableEq Tid] in
theorem Inv.slot_eq (h : w.Inv B pos) (i : Nat) :
    w.queue.slot i = w.slotAt (w.popped.length + i) := by
  simp only [slot, slotAt, h.front_eq, uint32, Nat.mod_add_mod]

omit [DecidableEq Tid] in
theorem Inv.numPending_eq (h : w.Inv B pos) :
    w.popped.length + w.numPending = w.reservations.length := by
  have h1 := h.front_le_back
  have h2 := h.back_le_backRes
  unfold numPending
  omega

omit [DecidableEq Tid] in
theorem Inv.pos_lt (h : w.Inv B pos) {u : Tid} (hu : (w.producers u).held ≠ none) :
    pos u < w.reservations.length := by
  obtain ⟨n, hn⟩ := Option.ne_none_iff_exists'.mp hu
  exact (h.held u n hn).2.2

omit [DecidableEq Tid] in
/-- With room behind it, the next position is in a slot of its own. -/
theorem Inv.distinct_succ (h : w.Inv B pos) (hroom : w.RoomBehind) {i j : Nat}
    (hi : w.popped.length ≤ i) (hij : i < j) (hj : j ≤ w.reservations.length + 1) :
    w.slotAt i ≠ w.slotAt j := by
  rcases Nat.lt_or_eq_of_le hj with hj | rfl
  · exact h.distinct i j hi hij (Nat.le_of_lt_succ hj)
  · have hpending := h.numPending_eq
    have hslot := hroom.2 (i - w.popped.length) (by omega)
    rw [h.slot_eq, h.slot_eq, ← Nat.add_assoc, hpending, Nat.add_sub_cancel' hi] at hslot
    exact hslot

/-- A thread that reserves the next position holds it. -/
theorem Inv.owned_reserve (h : w.Inv B pos) (hnone : (w.producers t).held = none) (job : α)
    (n : Nat) {k : Nat} (hkB : B ≤ k) (hk : k < w.reservations.length + 1) :
    ∃ u, ((w.setProducer t (.writeSlot job n)).producers u).held ≠ none ∧
      Function.update pos t w.reservations.length u = k := by
  rcases Nat.lt_or_eq_of_le (Nat.le_of_lt_succ hk) with hk | rfl
  · obtain ⟨u, hu, hpos⟩ := h.owned k hkB hk
    have hut : u ≠ t := by
      rintro rfl
      exact hu hnone
    refine ⟨u, ?_, ?_⟩
    · rw [setProducer_producers, if_neg hut]
      exact hu
    · rw [Function.update_of_ne hut]
      exact hpos
  · refine ⟨t, ?_, Function.update_self ..⟩
    rw [setProducer_producers, if_pos rfl]
    simp [PushPc.held]

/-- The position is none of the others. -/
theorem Inv.disjoint_reserve (h : w.Inv B pos) (job : α) (n : Nat) {u v : Tid} (huv : u ≠ v)
    (hu : ((w.setProducer t (.writeSlot job n)).producers u).held ≠ none)
    (hv : ((w.setProducer t (.writeSlot job n)).producers v).held ≠ none) :
    Function.update pos t w.reservations.length u ≠
      Function.update pos t w.reservations.length v := by
  rw [setProducer_producers] at hu hv
  by_cases hut : u = t
  · have hvt : v ≠ t := fun hvt => huv (hut.trans hvt.symm)
    rw [if_neg hvt] at hv
    rw [hut, Function.update_self, Function.update_of_ne hvt]
    exact Ne.symm (Nat.ne_of_lt (h.pos_lt hv))
  · rw [if_neg hut] at hu
    rw [Function.update_of_ne hut]
    by_cases hvt : v = t
    · rw [hvt, Function.update_self]
      exact Nat.ne_of_lt (h.pos_lt hu)
    · rw [if_neg hvt] at hv
      rw [Function.update_of_ne hvt]
      exact h.disjoint u v huv hu hv

/-- A job is reserved behind the others. -/
theorem Inv.reserve (h : w.Inv B pos) {job : α} {backRes : Nat}
    (ht : w.producers t = .casBackRes job backRes) (hback : w.queue.backRes = backRes)
    (hroom : w.RoomBehind) :
    ({ w with
        queue := { w.queue with backRes := uint32 (backRes + 1) }
        reservations := w.reservations ++ [job] }.setProducer t (.writeSlot job backRes)).Inv B
      (Function.update pos t w.reservations.length) := by
  have hF := h.front_le_back
  have hB := h.back_le_backRes
  have hlen : (w.reservations ++ [job]).length = w.reservations.length + 1 := by simp
  have hget : ∀ k, k < w.reservations.length →
      (w.reservations ++ [job])[k]? = w.reservations[k]? :=
    fun k hk => List.getElem?_append_left hk
  have hnone : (w.producers t).held = none := by rw [ht]; rfl
  exact { h with
    backRes_eq := by
      change uint32 (backRes + 1) = uint32 (w.reservations ++ [job]).length
      rw [← hback, h.backRes_eq, uint32_uint32_add, hlen]
    back_le_backRes := by
      change B ≤ (w.reservations ++ [job]).length
      omega
    distinct := by
      intro i j hi hij hj
      exact h.distinct_succ hroom hi hij (hlen ▸ hj)
    stored := by
      intro k hk hkB
      exact (h.stored k hk hkB).trans (hget k (by omega)).symm
    held := by
      intro u n hu
      rw [setProducer_producers] at hu
      by_cases hut : u = t
      · rw [if_pos hut, PushPc.held, Option.some.injEq] at hu
        rw [hut, Function.update_self, ← hu, ← hback, h.backRes_eq]
        exact ⟨rfl, hB, hlen ▸ Nat.lt_succ_self _⟩
      · rw [if_neg hut] at hu
        obtain ⟨hn, h1, h2⟩ := h.held u n hu
        rw [Function.update_of_ne hut]
        exact ⟨hn, h1, hlen ▸ Nat.lt_succ_of_lt h2⟩
    writing := by
      intro u job' n hu
      rw [setProducer_producers] at hu
      by_cases hut : u = t
      · rw [if_pos hut, PushPc.writeSlot.injEq] at hu
        rw [hut, Function.update_self, ← hu.1]
        exact List.getElem?_concat_length
      · rw [if_neg hut] at hu
        have hlt := (h.held u n (by rw [hu]; rfl)).2.2
        rw [Function.update_of_ne hut]
        exact (hget _ hlt).trans (h.writing u job' n hu)
    written := by
      intro u n r hu
      rw [setProducer_producers] at hu
      by_cases hut : u = t
      · rw [if_pos hut] at hu
        cases hu
      · rw [if_neg hut] at hu
        have hlt := (h.held u r (by rw [hu]; rfl)).2.2
        rw [Function.update_of_ne hut]
        exact (h.written u n r hu).trans (hget _ hlt).symm
    owned := by
      intro k hkB hk
      exact h.owned_reserve hnone job backRes hkB (hlen ▸ hk)
    disjoint := fun u v huv hu hv => h.disjoint_reserve job backRes huv hu hv
    consumer := by
      have hconsumer := h.consumer
      change ConsumerHolds _ B w.consumer
      cases hc : w.consumer with
      | fetchAdd read =>
        rw [hc] at hconsumer
        exact ⟨hconsumer.1, hconsumer.2.trans (hget _ (by have := hconsumer.1; omega)).symm⟩
      | idle | loadFront | loadBack | readSlot =>
        rw [hc] at hconsumer
        exact hconsumer
    popped := by
      change w.popped = ((w.reservations ++ [job]).take w.popped.length).map some
      rw [List.take_append_of_le_length (by omega)]
      exact h.popped }

omit [DecidableEq Tid] in
/-- A thread writes the slot it has reserved. -/
theorem Inv.write (h : w.Inv B pos) {job : α} {backRes : Nat}
    (ht : w.producers t = .writeSlot job backRes) :
    Inv { w with queue :=
      { w.queue with
        queue := Function.update w.queue.queue (backRes % w.queue.size) (some job) } } B pos ∧
      Stored { w with queue :=
        { w.queue with
          queue := Function.update w.queue.queue (backRes % w.queue.size) (some job) } }
        (pos t) := by
  obtain ⟨hres, hB, hR⟩ := h.held t backRes (by rw [ht]; rfl)
  have hF := h.front_le_back
  have hbackRes := h.back_le_backRes
  have hslot : backRes % w.queue.size = w.slotAt (pos t) := by rw [hres]; rfl
  -- the other jobs are in other slots
  have hkeep : ∀ k, w.popped.length ≤ k → k < w.reservations.length → k ≠ pos t →
      w.Stored k → Stored { w with queue :=
        { w.queue with
          queue := Function.update w.queue.queue (backRes % w.queue.size) (some job) } } k := by
    intro k hk hk' hne hstored
    have hother : w.slotAt k ≠ w.slotAt (pos t) := by
      rcases Nat.lt_or_gt_of_ne hne with hlt | hgt
      · exact h.distinct k (pos t) hk hlt (Nat.le_of_lt hR)
      · exact Ne.symm (h.distinct (pos t) k (by omega) hgt (Nat.le_of_lt hk'))
    change Function.update w.queue.queue (backRes % w.queue.size) (some job) (w.slotAt k) =
      w.reservations[k]?
    rw [hslot, Function.update_of_ne hother]
    exact hstored
  refine ⟨⟨h.front_eq, h.back_eq, h.backRes_eq, hF, hbackRes, h.distinct, ?_, h.held,
    h.writing, ?_, h.owned, h.disjoint, ?_, h.popped⟩, ?_⟩
  · intro k hk hkB
    exact hkeep k hk (Nat.lt_of_lt_of_le hkB hbackRes) (by omega) (h.stored k hk hkB)
  · intro u n r hu
    have hut : u ≠ t := by
      rintro rfl
      rw [ht] at hu
      cases hu
    obtain ⟨-, h1, h2⟩ := h.held u r (by rw [hu]; rfl)
    refine hkeep (pos u) (by omega) h2 ?_ (h.written u n r hu)
    exact h.disjoint u t hut (by rw [hu]; simp [PushPc.held]) (by rw [ht]; simp [PushPc.held])
  · exact h.consumer
  · change Function.update w.queue.queue (backRes % w.queue.size) (some job) (w.slotAt (pos t)) =
      w.reservations[pos t]?
    rw [hslot, Function.update_self]
    exact (h.writing t job backRes ht).symm

omit [DecidableEq Tid] in
/-- Positions that are counted alike and not popped are the same. -/
theorem Inv.eq_of_uint32_eq (h : w.Inv B pos) {i j : Nat} (hi : w.popped.length ≤ i)
    (hij : i ≤ j) (hj : j ≤ w.reservations.length) (heq : uint32 i = uint32 j) : i = j := by
  by_contra hne
  refine h.distinct i j hi (Nat.lt_of_le_of_ne hij hne) hj ?_
  rw [slotAt, slotAt, heq]

/-- The thread whose position is next publishes it. -/
theorem Inv.publish (h : w.Inv B pos) {backRes reserved : Nat}
    (ht : w.producers t = .casBack backRes reserved) (hback : w.queue.back = backRes)
    (hturn : backRes = reserved) :
    ({ w with queue := { w.queue with back := uint32 (backRes + 1) } }.setProducer t .idle).Inv
      (B + 1) pos := by
  have hheld : (w.producers t).held = some reserved := by rw [ht]; rfl
  obtain ⟨hres, hB, hR⟩ := h.held t reserved hheld
  have hF := h.front_le_back
  have hpos : B = pos t := by
    refine h.eq_of_uint32_eq hF hB (Nat.le_of_lt hR) ?_
    rw [← h.back_eq, hback, hturn, hres]
  have hne : ∀ u, u ≠ t → (w.producers u).held ≠ none → pos u ≠ B := by
    intro u hut hu
    rw [hpos]
    exact h.disjoint u t hut hu (by simp [hheld])
  have hother : ∀ {u pc}, (if u = t then PushPc.idle else w.producers u) = pc → pc ≠ .idle →
      u ≠ t ∧ w.producers u = pc := by
    intro u pc hu hpc
    split at hu
    · exact absurd hu.symm hpc
    · next hut => exact ⟨hut, hu⟩
  exact { h with
    back_eq := by
      change uint32 (backRes + 1) = uint32 (B + 1)
      rw [← hback, h.back_eq, uint32_uint32_add]
    front_le_back := Nat.le_succ_of_le hF
    back_le_backRes := by
      change B + 1 ≤ w.reservations.length
      omega
    stored := by
      intro k hk hkB
      rcases Nat.lt_or_eq_of_le (Nat.le_of_lt_succ hkB) with hkB | rfl
      · exact h.stored k hk hkB
      · rw [hpos]
        exact h.written t backRes reserved ht
    held := by
      intro u n hu
      rw [setProducer_producers] at hu
      split at hu
      · cases hu
      · next hut =>
        obtain ⟨hn, h1, h2⟩ := h.held u n hu
        have := hne u hut (by simp [hu])
        exact ⟨hn, by omega, h2⟩
    writing := by
      intro u job n hu
      rw [setProducer_producers] at hu
      exact h.writing u job n (hother hu (by simp)).2
    written := by
      intro u n r hu
      rw [setProducer_producers] at hu
      exact h.written u n r (hother hu (by simp)).2
    owned := by
      intro k hkB hk
      obtain ⟨u, hu, hku⟩ := h.owned k (by omega) hk
      have hut : u ≠ t := by
        rintro rfl
        omega
      refine ⟨u, ?_, hku⟩
      rw [setProducer_producers, if_neg hut]
      exact hu
    disjoint := by
      intro u v huv hu hv
      rw [setProducer_producers] at hu hv
      split at hu
      · exact absurd rfl hu
      split at hv
      · exact absurd rfl hv
      exact h.disjoint u v huv hu hv
    consumer := by
      have hconsumer := h.consumer
      change ConsumerHolds _ (B + 1) w.consumer
      cases hc : w.consumer with
      | idle | loadFront | loadBack =>
        rw [hc] at hconsumer
        exact hconsumer
      | readSlot front =>
        rw [hc] at hconsumer
        exact ⟨hconsumer.1, Nat.lt_succ_of_lt hconsumer.2⟩
      | fetchAdd job =>
        rw [hc] at hconsumer
        exact ⟨Nat.lt_succ_of_lt hconsumer.1, hconsumer.2⟩ }

/-- A thread's next access, its reservation and its publication as they should be. -/
theorem Inv.producerStep (h : w.Inv B pos) {spurious : Bool}
    (hroomy : w.Roomy (.produce t spurious)) (hturn : w.PublishedInTurn (.produce t spurious))
    (hs : w.producerStep t spurious = some w') : ∃ B' pos', w'.Inv B' pos' := by
  unfold QueueSystem.producerStep at hs
  cases ht : w.producers t with
  | idle =>
    rw [ht] at hs
    cases hs
  | loadBackRes job =>
    rw [ht] at hs
    obtain rfl := Option.some.inj hs
    exact ⟨B, pos, h.setProducer_of_held (by rw [ht]; rfl) rfl⟩
  | loadFront job backRes =>
    rw [ht] at hs
    simp only at hs
    split at hs <;> obtain rfl := Option.some.inj hs
    · exact ⟨B, pos, h.setProducer_of_held (by rw [ht]; rfl) rfl⟩
    · exact ⟨B, pos, h.setProducer_of_held (by rw [ht]; rfl) rfl⟩
  | casBackRes job backRes =>
    rw [ht] at hs
    simp only at hs
    split at hs <;> obtain rfl := Option.some.inj hs
    · next hcas =>
      rw [hcas.2, Roomy, ht] at hroomy
      exact ⟨B, _, h.reserve ht hcas.1 (hroomy hcas.1)⟩
    · exact ⟨B, pos, h.setProducer_of_held (by rw [ht]; rfl) rfl⟩
  | writeSlot job backRes =>
    rw [ht] at hs
    obtain rfl := Option.some.inj hs
    obtain ⟨h', hstored⟩ := h.write ht
    refine ⟨B, pos, h'.setProducer (by rw [ht]; rfl) (fun _ _ heq => ?_) fun _ _ _ => hstored⟩
    cases heq
  | casBack backRes reserved =>
    rw [ht] at hs
    simp only at hs
    split at hs <;> obtain rfl := Option.some.inj hs
    · next hcas =>
      rw [hcas.2, PublishedInTurn, ht] at hturn
      exact ⟨B + 1, pos, h.publish ht hcas.1 (hturn hcas.1)⟩
    · refine ⟨B, pos, h.setProducer (by rw [ht]; rfl) (fun _ _ heq => ?_)
        fun _ _ _ => h.written t backRes reserved ht⟩
      cases heq

end

theorem Inv.setConsumer (h : w.Inv B pos) {pc : PopPc α} (hpc : w.ConsumerHolds B pc) :
    Inv { w with consumer := pc } B pos :=
  { h with consumer := hpc }

/-- The queue looks empty exactly when all published jobs are popped. -/
theorem Inv.looks_empty_iff (h : w.Inv B pos) :
    w.queue.front % w.queue.size = w.queue.back % w.queue.size ↔ w.popped.length = B := by
  rw [h.front_eq, h.back_eq]
  constructor
  · intro heq
    by_contra hne
    exact h.distinct _ _ (Nat.le_refl _) (Nat.lt_of_le_of_ne h.front_le_back hne)
      h.back_le_backRes heq
  · intro heq
    rw [heq]

/-- The job thread takes the job at the front. -/
theorem Inv.pop (h : w.Inv B pos) {job : Option α} (hlt : w.popped.length < B)
    (hjob : job = w.reservations[w.popped.length]?) :
    Inv { w with
      queue := { w.queue with front := uint32 (w.queue.front + 1) }
      consumer := .idle
      popped := w.popped ++ [job] } B pos := by
  have hR := h.back_le_backRes
  have hlen : (w.popped ++ [job]).length = w.popped.length + 1 := by simp
  refine ⟨?_, h.back_eq, h.backRes_eq, ?_, hR, ?_, ?_, h.held, h.writing, h.written, h.owned,
    h.disjoint, trivial, ?_⟩
  · change uint32 (w.queue.front + 1) = uint32 (w.popped ++ [job]).length
    rw [h.front_eq, uint32_uint32_add, hlen]
  · change (w.popped ++ [job]).length ≤ B
    omega
  · intro i j hi
    replace hi : w.popped.length + 1 ≤ i := hlen ▸ hi
    exact h.distinct i j (Nat.le_of_succ_le hi)
  · intro k hk
    replace hk : w.popped.length + 1 ≤ k := hlen ▸ hk
    exact h.stored k (Nat.le_of_succ_le hk)
  · change w.popped ++ [job] = (w.reservations.take (w.popped ++ [job]).length).map some
    rw [hlen, List.take_add_one, List.map_append, ← h.popped, hjob,
      List.getElem?_eq_getElem (Nat.lt_of_lt_of_le hlt hR)]
    rfl

theorem Inv.consumerStep (h : w.Inv B pos) (hs : w.consumerStep = some w') : w'.Inv B pos := by
  have hconsumer := h.consumer
  unfold QueueSystem.consumerStep at hs
  cases hc : w.consumer with
  | idle =>
    rw [hc] at hs
    cases hs
  | loadFront =>
    rw [hc] at hs
    obtain rfl := Option.some.inj hs
    exact h.setConsumer h.front_eq
  | loadBack front =>
    rw [hc] at hs hconsumer
    replace hconsumer : front = uint32 w.popped.length := hconsumer
    simp only at hs
    split at hs <;> obtain rfl := Option.some.inj hs
    · exact h.setConsumer trivial
    · next hne =>
      rw [hconsumer, ← h.front_eq, h.looks_empty_iff] at hne
      exact h.setConsumer ⟨hconsumer, Nat.lt_of_le_of_ne h.front_le_back hne⟩
  | readSlot front =>
    rw [hc] at hs hconsumer
    obtain ⟨hfront, hlt⟩ := hconsumer
    obtain rfl := Option.some.inj hs
    rw [hfront]
    exact h.setConsumer ⟨hlt, h.stored _ (Nat.le_refl _) hlt⟩
  | fetchAdd job =>
    rw [hc] at hs hconsumer
    obtain rfl := Option.some.inj hs
    exact h.pop hconsumer.1 hconsumer.2

variable [DecidableEq Tid]

/-- **A roomy step that publishes in turn keeps the invariant.** -/
theorem Inv.step (h : w.Inv B pos) {a : QueueAction Tid α} (hroomy : w.Roomy a)
    (hturn : w.PublishedInTurn a) (hs : w.step a = some w') : ∃ B' pos', w'.Inv B' pos' := by
  cases a with
  | pushBack t job =>
    simp only [QueueSystem.step] at hs
    split at hs
    · next ht =>
      obtain rfl := Option.some.inj hs
      exact ⟨B, pos, h.setProducer_of_held (by rw [ht]; rfl) rfl⟩
    · cases hs
  | produce t spurious => exact h.producerStep hroomy hturn hs
  | popFront =>
    simp only [QueueSystem.step] at hs
    split at hs
    · obtain rfl := Option.some.inj hs
      exact ⟨B, pos, h.setConsumer trivial⟩
    · cases hs
  | consume => exact ⟨B, pos, h.consumerStep hs⟩

omit [DecidableEq Tid] in
theorem init_inv (size : UInt32) : (init size : QueueSystem Tid α).Inv 0 fun _ => 0 where
  front_eq := rfl
  back_eq := rfl
  backRes_eq := rfl
  front_le_back := Nat.le_refl _
  back_le_backRes := Nat.le_refl _
  distinct := by
    intro i j _ hij hj
    exact absurd (Nat.lt_of_lt_of_le hij hj) (Nat.not_lt_zero i)
  stored k _ hk := absurd hk (Nat.not_lt_zero k)
  held t n hn := by cases hn
  writing t job n hn := by cases hn
  written t n r hn := by cases hn
  owned k _ hk := absurd hk (Nat.not_lt_zero k)
  disjoint t u _ ht := absurd rfl ht
  consumer := trivial
  popped := rfl

theorem exists_inv {size : UInt32} {as : List (QueueAction Tid α)}
    (hrun : Lts.exec step (init size) as = some w)
    (hroomy : Lts.Along step Roomy (init size) as)
    (hturn : Lts.Along step PublishedInTurn (init size) as) : ∃ B pos, w.Inv B pos := by
  refine Lts.exec_invariant_along (I := fun w : QueueSystem Tid α => ∃ B pos, w.Inv B pos) ?_
    ⟨0, _, init_inv size⟩ (hroomy.and hturn) hrun
  rintro w a w' ⟨B, pos, h⟩ ⟨hr, ht⟩ hs
  exact h.step hr ht hs

/-! ## First in, first out -/

/-- The reservations, with the back at the `B`-th: the first ones are popped in
their order, the ones up to `B` are visible and stored, and each one behind is
held by one thread that is still in its call. -/
structure InOrder (w : QueueSystem Tid α) (B : Nat) : Prop where
  popped : w.popped = (w.reservations.take w.popped.length).map some
  front_le_back : w.popped.length ≤ B
  back_le_backRes : B ≤ w.reservations.length
  back : w.queue.back = uint32 B
  visible : ∀ k, w.popped.length ≤ k → k < B → w.Stored k
  looks_empty_iff :
    w.queue.front % w.queue.size = w.queue.back % w.queue.size ↔ w.popped.length = B
  unpublished : ∀ k, B ≤ k → k < w.reservations.length →
    ∃! t, (w.producers t).held = some (uint32 k)

omit [DecidableEq Tid] in
theorem Inv.inOrder (h : w.Inv B pos) : w.InOrder B := by
  refine ⟨h.popped, h.front_le_back, h.back_le_backRes, h.back_eq, h.stored, h.looks_empty_iff,
    fun k hkB hk => ?_⟩
  have hF := h.front_le_back
  -- a thread that holds the position as it is counted holds the position
  have hpos : ∀ u, (w.producers u).held = some (uint32 k) → pos u = k := by
    intro u hu
    obtain ⟨hn, h1, h2⟩ := h.held u _ hu
    rcases Nat.le_total k (pos u) with hle | hle
    · exact (h.eq_of_uint32_eq (Nat.le_trans hF hkB) hle (Nat.le_of_lt h2) hn).symm
    · exact h.eq_of_uint32_eq (Nat.le_trans hF h1) hle (Nat.le_of_lt hk) hn.symm
  obtain ⟨t, ht, htk⟩ := h.owned k hkB hk
  obtain ⟨n, hn⟩ := Option.ne_none_iff_exists'.mp ht
  refine ⟨t, ?_, fun u hu => ?_⟩
  · change (w.producers t).held = some (uint32 k)
    rw [hn, (h.held t n hn).1, htk]
  · by_contra hne
    refine h.disjoint u t hne ?_ ht ((hpos u hu).trans htk.symm)
    rw [hu]
    exact Option.some_ne_none _

/-- **Jobs come out in the order of their reservations**, each one once and none
left out, where a push leaves room behind it and every thread publishes the
position it has reserved. -/
theorem popped_in_order (size : UInt32) (as : List (QueueAction Tid α))
    (hrun : Lts.exec step (init size) as = some w)
    (hroomy : Lts.Along step Roomy (init size) as)
    (hturn : Lts.Along step PublishedInTurn (init size) as) : ∃ B, w.InOrder B := by
  obtain ⟨B, pos, h⟩ := exists_inv hrun hroomy hturn
  exact ⟨B, h.inOrder⟩

/-! ## Sizes that divide the range of the counters -/

/-- A push that reserves a position leaves fewer than size jobs pending. -/
def FewPending (w : QueueSystem Tid α) : QueueAction Tid α → Prop
  | .produce t false =>
    (w.producers t).Reserves w.queue.backRes → w.numPending + 1 < w.queue.size
  | _ => True

omit [DecidableEq Tid] in
/-- There the slots of a lap are different wherever it starts. -/
theorem roomBehind_iff (hdvd : w.queue.size ∣ 2 ^ 32) :
    w.RoomBehind ↔ w.numPending + 1 < w.queue.size := by
  refine ⟨And.left, fun hroom => ⟨hroom, fun i hi heq => ?_⟩⟩
  simp only [slot, uint32, Nat.mod_mod_of_dvd _ hdvd] at heq
  have := (Ring.mod_eq_iff_of_lt (f := w.queue.front) (by omega) (by omega) (by omega)
    (by omega)).mp heq
  omega

omit [DecidableEq Tid] in
theorem roomy_iff (hdvd : w.queue.size ∣ 2 ^ 32) (a : QueueAction Tid α) :
    w.Roomy a ↔ w.FewPending a := by
  cases a with
  | produce t spurious =>
    cases spurious with
    | false => exact imp_congr_right fun _ => roomBehind_iff hdvd
    | true => exact Iff.rfl
  | pushBack | popFront | consume => exact Iff.rfl

theorem size_step {a : QueueAction Tid α} (hs : w.step a = some w') :
    w'.queue.size = w.queue.size := by
  cases a with
  | pushBack t job =>
    simp only [QueueSystem.step] at hs
    split at hs <;> cases hs
    rfl
  | produce t spurious =>
    simp only [QueueSystem.step, QueueSystem.producerStep] at hs
    split at hs <;> first
      | cases hs <;> rfl
      | split at hs <;> cases hs <;> rfl
  | popFront =>
    simp only [QueueSystem.step] at hs
    split at hs <;> cases hs
    rfl
  | consume =>
    simp only [QueueSystem.step, QueueSystem.consumerStep] at hs
    split at hs <;> first
      | cases hs <;> rfl
      | split at hs <;> cases hs <;> rfl

/-- With the 1024 places of the job manager it is enough that fewer jobs are
pending than there are places. -/
theorem inOrder_of_dvd {size : UInt32} (hdvd : size.toNat ∣ 2 ^ 32)
    {as : List (QueueAction Tid α)} (hrun : Lts.exec step (init size) as = some w)
    (hpending : Lts.Along step FewPending (init size) as)
    (hturn : Lts.Along step PublishedInTurn (init size) as) : ∃ B, w.InOrder B := by
  have hroomy : Lts.Along step Roomy (init size) as := by
    refine (Lts.along_congr (I := fun w : QueueSystem Tid α => w.queue.size = size.toNat)
      (fun w a hsize => ?_) (fun w a w' hsize hs => ?_) rfl).mpr hpending
    · exact roomy_iff (hsize ▸ hdvd) a
    · exact (size_step hs).trans hsize
  obtain ⟨B, pos, h⟩ := exists_inv hrun hroomy hturn
  exact ⟨B, h.inOrder⟩

/-! Two threads and a queue of four places. -/

def thread₀ : Fin 2 := ⟨0, Nat.two_pos⟩

def thread₁ : Fin 2 := ⟨1, Nat.one_lt_two⟩

/-- Thread 1 writes its slot first and publishes after thread 0. -/
def inTurn : List (QueueAction (Fin 2) Nat) :=
  [.pushBack thread₀ 5, .produce thread₀ false, .produce thread₀ false, .produce thread₀ false,
    .pushBack thread₁ 7, .produce thread₁ false, .produce thread₁ false, .produce thread₁ false,
    .produce thread₁ false, .produce thread₀ false, .produce thread₀ false,
    .produce thread₁ false, .popFront, .consume, .consume, .consume, .consume]

theorem popped_in_order_two : ∃ w : QueueSystem (Fin 2) Nat,
    Lts.exec step (init 4) inTurn = some w ∧ w.popped = [some 5] ∧ w.reservations = [5, 7] ∧
      ∃ B, w.InOrder B :=
  ⟨_, rfl, rfl, rfl, popped_in_order 4 inTurn rfl (by decide) (by decide)⟩

/-- Thread 1 reserves after thread 0, writes its slot, fails its first publishing
compare exchange and succeeds with the second. -/
def outOfTurn : List (QueueAction (Fin 2) Nat) :=
  [.pushBack thread₀ 5, .produce thread₀ false, .produce thread₀ false, .produce thread₀ false,
    .pushBack thread₁ 7, .produce thread₁ false, .produce thread₁ false, .produce thread₁ false,
    .produce thread₁ false, .produce thread₁ false, .produce thread₁ false,
    .popFront, .consume, .consume, .consume, .consume]

/-- The slot thread 0 has not written is then visible, and `PopFront` returns
what was in it before. -/
theorem outOfTurn_not_inOrder : ∃ w : QueueSystem (Fin 2) Nat,
    Lts.exec step (init 4) outOfTurn = some w ∧ Lts.Along step Roomy (init 4) outOfTurn ∧
      w.reservations = [5, 7] ∧ w.popped = [none] ∧ ¬ ∃ B, w.InOrder B := by
  refine ⟨_, rfl, by decide, rfl, rfl, ?_⟩
  rintro ⟨B, h⟩
  exact absurd h.popped (by decide)

end QueueSystem

end JobQueue

end Ibdxnet.Con
