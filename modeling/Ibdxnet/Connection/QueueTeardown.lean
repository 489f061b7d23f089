import Ibdxnet.Connection.JobQueue

/-!
# Tearing a job queue down

`JobQueue::~JobQueue` deletes the jobs that are still pending.  Its loop compares
the counters modulo the size, as the other operations do, but it takes the front
counter itself as the index of the slot.  After any number of pushes and pops,
with fewer than `size` jobs pending,

    exactly the pending jobs are deleted, from slots of the array
      ↔  no job is pending, or front + pending ≤ size            (teardown_iff)

so that only a queue whose back has not left the first lap is torn down as it
should be.
-/

namespace Ibdxnet.Con

namespace JobQueue

variable {α : Type*}

/-! ## Algorithm -/

/-- The loop of `~JobQueue`, from a value of its local `front` on: the indices of
`m_queue` whose jobs it deletes, `none` if it is not done after `fuel` rounds. -/
def destroy (q : JobQueue α) : Nat → Nat → Option (List Nat)
  | 0, _ => none
  | fuel + 1, front =>
    if front % q.size = q.back % q.size then
      some []
    else
      (q.destroy fuel (uint32 (front + 1))).map (front :: ·)

/-- The loop ends, reads slots of the array only, and deletes `jobs`, each once. -/
def TearsDown (q : JobQueue α) (jobs : List α) : Prop :=
  ∃ fuel indices, q.destroy fuel q.front = some indices ∧ (∀ i ∈ indices, i < q.size) ∧
    (indices.map q.queue).Perm (jobs.map some)

/-! ## The loop -/

/-- The indices are the values of the counter. -/
theorem getElem?_destroy {q : JobQueue α} {fuel front : Nat} {indices : List Nat}
    (hfront : front < 2 ^ 32) (h : q.destroy fuel front = some indices) {i : Nat}
    (hi : i < indices.length) : indices[i]? = some (uint32 (front + i)) := by
  induction fuel generalizing front indices i with
  | zero => cases h
  | succ fuel ih =>
    rw [destroy] at h
    split at h
    · obtain rfl : [] = indices := Option.some.inj h
      exact absurd hi (Nat.not_lt_zero i)
    · obtain ⟨rest, hrest, rfl⟩ := Option.map_eq_some_iff.mp h
      cases i with
      | zero =>
        rw [List.getElem?_cons_zero, Nat.add_zero, uint32, Nat.mod_eq_of_lt hfront]
      | succ i =>
        have hnext : uint32 (front + 1) < 2 ^ 32 := Nat.mod_lt _ (Nat.two_pow_pos 32)
        rw [List.getElem?_cons_succ, ih hnext hrest (Nat.lt_of_succ_lt_succ hi)]
        simp only [uint32, Nat.mod_add_mod, Nat.add_assoc, Nat.add_comm 1 i]

/-- The counter comes to the back, if not earlier to its slot. -/
theorem destroy_terminates {q : JobQueue α} {front n : Nat} (hfront : front < 2 ^ 32)
    (hback : q.back = uint32 (front + n)) : ∃ indices, q.destroy (n + 1) front = some indices := by
  induction n generalizing front with
  | zero =>
    have heq : q.back = front := by
      rw [hback, Nat.add_zero, uint32, Nat.mod_eq_of_lt hfront]
    exact ⟨[], by rw [destroy, if_pos (by rw [heq])]⟩
  | succ n ih =>
    rw [destroy]
    split
    · exact ⟨[], rfl⟩
    · obtain ⟨indices, hrest⟩ := ih (Nat.mod_lt (front + 1) (Nat.two_pow_pos 32)) (by
        rw [hback]
        simp only [uint32, Nat.mod_add_mod, Nat.add_assoc, Nat.add_comm 1])
      exact ⟨front :: indices, by rw [uint32, hrest]; rfl⟩

/-- In the first lap the loop walks up to the back. -/
theorem destroy_eq_range' {q : JobQueue α} (hsize : q.size < 2 ^ 32) {front n : Nat}
    (hle : front + n ≤ q.size) (hn : n < q.size) (hback : q.back % q.size = (front + n) % q.size) :
    q.destroy (n + 1) front = some (List.range' front n) := by
  induction n generalizing front with
  | zero =>
    rw [destroy, if_pos (by rw [hback, Nat.add_zero])]
    rfl
  | succ n ih =>
    have hfront : front % q.size = front := Nat.mod_eq_of_lt (by omega)
    have hne : ¬ front % q.size = q.back % q.size := by
      rw [hback, hfront]
      rcases Nat.lt_or_eq_of_le hle with hlt | heq
      · rw [Nat.mod_eq_of_lt hlt]
        omega
      · rw [heq, Nat.mod_self]
        omega
    have hnext : uint32 (front + 1) = front + 1 := Nat.mod_eq_of_lt (by omega)
    rw [destroy, if_neg hne, hnext, ih (by omega) (by omega) (by rw [hback]; congr 1; omega)]
    rfl

/-- Counter values that are all slots have not left the first lap. -/
theorem add_le_of_uint32_lt {front n size : Nat} (hfront : front < 2 ^ 32) (hsize : size < 2 ^ 32)
    (h : ∀ i, i < n → uint32 (front + i) < size) : n = 0 ∨ front + n ≤ size := by
  induction n with
  | zero => exact Or.inl rfl
  | succ n ih =>
    right
    have hlast := h n (Nat.lt_succ_self n)
    rcases ih fun i hi => h i (Nat.lt_succ_of_lt hi) with rfl | hle
    · rw [uint32, Nat.add_zero, Nat.mod_eq_of_lt hfront] at hlast
      omega
    · rw [uint32, Nat.mod_eq_of_lt (by omega)] at hlast
      omega

/-! ## What is in the slots -/

namespace History

/-- After any calls: the pending jobs are the last ones taken, the counters are
their number apart, and each is in its slot unless a later one shares it. -/
structure Slots (size : UInt32) (h : History α) (pending : List α) : Prop where
  size : h.queue.size = size.toNat
  popped_le : h.popped.length ≤ h.accepted.length
  drop_eq : h.accepted.drop h.popped.length = pending
  front : h.queue.front < 2 ^ 32
  back : h.queue.back = uint32 (h.queue.front + pending.length)
  backRes : h.queue.backRes = h.queue.back
  slots : ∀ i (hi : i < pending.length),
    (∀ j, i < j → j < pending.length → h.queue.slot j ≠ h.queue.slot i) →
    h.queue.queue (h.queue.slot i) = some pending[i]

variable {size : UInt32} {h h' : History α} {pending : List α}

theorem slots_init (size : UInt32) : Slots size (init size : History α) [] where
  size := rfl
  popped_le := Nat.le_refl 0
  drop_eq := rfl
  front := Nat.two_pow_pos 32
  back := rfl
  backRes := rfl
  slots i hi := absurd hi (Nat.not_lt_zero i)

theorem Slots.numPending (hs : Slots size h pending) : h.numPending = pending.length := by
  rw [History.numPending, ← hs.drop_eq, List.length_drop]

/-- The last position that shares the slot of position `i`. -/
theorem exists_last_slot (q : JobQueue α) {n i : Nat} (hi : i < n) :
    ∃ j, i ≤ j ∧ j < n ∧ q.slot j = q.slot i ∧ ∀ m, j < m → m < n → q.slot m ≠ q.slot j := by
  induction hd : n - i using Nat.strong_induction_on generalizing i with
  | _ d ih =>
    by_cases hlater : ∃ m, i < m ∧ m < n ∧ q.slot m = q.slot i
    · obtain ⟨m, him, hm, heq⟩ := hlater
      obtain ⟨j, hmj, hj, hslot, hlast⟩ := ih (n - m) (by omega) hm rfl
      exact ⟨j, by omega, hj, hslot.trans heq, hlast⟩
    · exact ⟨i, Nat.le_refl i, hi, rfl, fun m him hm heq => hlater ⟨m, him, hm, heq⟩⟩

theorem Slots.pushBack (hs : Slots size h pending) (job : α) :
    h.queue.pushBack job = (h.queue, false) ∨
      (h.queue.pushBack job).2 = true ∧
        Slots size { h with
          queue := (h.queue.pushBack job).1
          accepted := h.accepted ++ [job] } (pending ++ [job]) := by
  rw [JobQueue.pushBack]
  split
  · exact Or.inl rfl
  refine Or.inr ⟨rfl, hs.size, ?_, ?_, hs.front, ?_, ?_, ?_⟩
  · rw [List.length_append]
    exact Nat.le_trans hs.popped_le (Nat.le_add_right _ _)
  · rw [List.drop_append_of_le_length hs.popped_le, hs.drop_eq]
  · simp [hs.back, uint32, Nat.add_assoc]
  · simp [hs.backRes]
  · have hslot : h.queue.backRes % h.queue.size = h.queue.slot pending.length := by
      rw [hs.backRes, hs.back]
      rfl
    intro i hi hlast
    change Function.update h.queue.queue (h.queue.backRes % h.queue.size) (some job)
      (h.queue.slot i) = _
    rw [hslot]
    rw [List.length_append, List.length_singleton] at hi
    rcases Nat.lt_or_eq_of_le (Nat.le_of_lt_succ hi) with hlt | rfl
    · have hne : h.queue.slot i ≠ h.queue.slot pending.length :=
        (hlast pending.length hlt (by simp)).symm
      rw [Function.update_of_ne hne, List.getElem_append_left hlt]
      refine hs.slots i hlt fun j hij hj => hlast j hij ?_
      rw [List.length_append]
      omega
    · rw [Function.update_self, List.getElem_concat_length rfl]

theorem Slots.popFront (hs : Slots size h pending) :
    h.queue.popFront = (h.queue, none) ∨
      ∃ job, h.queue.popFront.2 = some job ∧
        Slots size { h with
          queue := h.queue.popFront.1
          popped := h.popped ++ [job] } pending.tail := by
  rw [JobQueue.popFront]
  split
  · exact Or.inl rfl
  next hne =>
  right
  cases pending with
  | nil =>
    -- with nothing pending the counters are equal
    refine absurd ?_ hne
    rw [hs.back, List.length_nil, Nat.add_zero, uint32, Nat.mod_eq_of_lt hs.front]
  | cons first rest =>
    have hslot : h.queue.front % h.queue.size = h.queue.slot 0 := by
      rw [slot, uint32, Nat.add_zero, Nat.mod_eq_of_lt hs.front]
    obtain ⟨j, -, hj, hj0, hlast⟩ := exists_last_slot h.queue (Nat.zero_lt_succ rest.length)
    have hjob := hs.slots j hj hlast
    rw [hj0, ← hslot] at hjob
    have hlength := congrArg List.length hs.drop_eq
    rw [List.length_drop, List.length_cons] at hlength
    refine ⟨_, hjob, hs.size, ?_, ?_, Nat.mod_lt _ (Nat.two_pow_pos 32), ?_, hs.backRes, ?_⟩
    · simp only [List.length_append, List.length_singleton]
      omega
    · rw [List.length_append, List.length_singleton, ← List.drop_drop, hs.drop_eq]
      rfl
    · change h.queue.back = uint32 (uint32 (h.queue.front + 1) + rest.length)
      rw [hs.back]
      simp only [uint32, List.length_cons, Nat.mod_add_mod, Nat.add_assoc, Nat.add_comm 1]
    · intro i hi hlast'
      have hi' : i < rest.length := hi
      have hlater : ∀ j, i + 1 < j → j < (first :: rest).length →
          h.queue.slot j ≠ h.queue.slot (i + 1) := by
        intro j hij hj
        obtain ⟨j, rfl⟩ := Nat.exists_eq_succ_of_ne_zero (Nat.ne_of_gt (Nat.zero_lt_of_lt hij))
        have hne := hlast' j (Nat.lt_of_succ_lt_succ hij) (Nat.lt_of_succ_lt_succ hj)
        rwa [slot_succ, slot_succ] at hne
      change h.queue.queue (({ h.queue with
        front := uint32 (h.queue.front + 1) } : JobQueue α).slot i) = _
      rw [slot_succ, hs.slots (i + 1) (Nat.succ_lt_succ hi') hlater]
      rfl

/-- **Every call keeps the slots.** -/
theorem Slots.step (hs : Slots size h pending) {c : Call α} (hstep : h.step c = some h') :
    ∃ pending', Slots size h' pending' := by
  cases c with
  | pushBack job =>
    simp only [History.step, Option.some.injEq] at hstep
    subst hstep
    rcases hs.pushBack job with heq | ⟨hadded, hs'⟩
    · rw [heq]
      exact ⟨pending, hs⟩
    · rw [hadded, if_pos rfl]
      exact ⟨_, hs'⟩
  | popFront =>
    simp only [History.step, Option.some.injEq] at hstep
    subst hstep
    rcases hs.popFront with heq | ⟨job, hjob, hs'⟩
    · rw [heq, Option.toList_none, List.append_nil]
      exact ⟨pending, hs⟩
    · rw [hjob]
      exact ⟨_, hs'⟩

/-- The jobs still pending: the last ones taken, as many as were not given out. -/
def pendingJobs (h : History α) : List α := h.accepted.drop h.popped.length

theorem slots_of_exec {calls : List (Call α)} (hrun : Lts.exec step (init size) calls = some h) :
    Slots size h h.pendingJobs := by
  obtain ⟨pending, hs⟩ := Lts.exec_invariant (I := fun h => ∃ pending, Slots size h pending)
    (fun _ _ _ ⟨_, hs⟩ hstep => hs.step hstep) ⟨[], slots_init size⟩ hrun
  rwa [pendingJobs, hs.drop_eq]

/-! ## Main result -/

theorem Slots.tearsDown_iff (hs : Slots size h pending) (hpending : pending.length < size.toNat) :
    h.queue.TearsDown pending ↔
      pending.length = 0 ∨ h.queue.front + pending.length ≤ size.toNat := by
  have hsize := size.toNat_lt
  constructor
  · rintro ⟨fuel, indices, hdestroy, hbounds, hdeleted⟩
    have hlength : indices.length = pending.length := by
      have hperm := hdeleted.length_eq
      rwa [List.length_map, List.length_map] at hperm
    refine add_le_of_uint32_lt hs.front hsize fun i hi => ?_
    have hget := getElem?_destroy hs.front hdestroy (hlength ▸ hi)
    rw [← hs.size]
    exact hbounds _ (List.mem_of_getElem? hget)
  · intro hfirst
    by_cases hnil : pending.length = 0
    · have hback : h.queue.back = h.queue.front := by
        rw [hs.back, hnil, Nat.add_zero, uint32, Nat.mod_eq_of_lt hs.front]
      refine ⟨1, [], ?_, fun i hi => absurd hi List.not_mem_nil, ?_⟩
      · rw [destroy, if_pos (by rw [hback])]
      · rw [List.eq_nil_of_length_eq_zero hnil]
        exact List.Perm.refl _
    · have hle := hfirst.resolve_left hnil
      have hslot : ∀ i, i < pending.length → h.queue.slot i = h.queue.front + i := by
        intro i hi
        rw [slot, uint32, hs.size, Nat.mod_eq_of_lt (show h.queue.front + i < 2 ^ 32 by omega),
          Nat.mod_eq_of_lt (by omega)]
      refine ⟨pending.length + 1, List.range' h.queue.front pending.length, ?_, ?_, ?_⟩
      · refine destroy_eq_range' (by rwa [hs.size]) (by rwa [hs.size]) (by rwa [hs.size]) ?_
        rw [hs.back, uint32,
          Nat.mod_eq_of_lt (show h.queue.front + pending.length < 2 ^ 32 by omega)]
      · intro i hi
        rw [List.mem_range'_1] at hi
        rw [hs.size]
        omega
      · have hjobs : (List.range' h.queue.front pending.length).map h.queue.queue =
            pending.map some := by
          refine List.ext_getElem (by simp) fun i h1 h2 => ?_
          rw [List.length_map] at h2
          rw [List.getElem_map, List.getElem_map, List.getElem_range', Nat.one_mul, ← hslot i h2]
          refine hs.slots i h2 fun j hij hj => ?_
          rw [hslot i h2, hslot j hj]
          omega
        rw [hjobs]

/-- **The destructor deletes the pending jobs exactly in the first lap.**  Its loop
ends in any case. -/
theorem teardown_iff {calls : List (Call α)} (hrun : Lts.exec step (init size) calls = some h)
    (hpending : h.numPending < size.toNat) :
    (∃ fuel indices, h.queue.destroy fuel h.queue.front = some indices) ∧
      (h.queue.TearsDown h.pendingJobs ↔
        h.numPending = 0 ∨ h.queue.front + h.numPending ≤ size.toNat) := by
  have hs := slots_of_exec hrun
  rw [hs.numPending] at hpending ⊢
  exact ⟨⟨_, destroy_terminates hs.front hs.back⟩, hs.tearsDown_iff hpending⟩

/-- A queue of four places in its first lap. -/
theorem teardown_first_lap :
    ∃ h : History Nat,
      Lts.exec step (init 4) [.pushBack 5, .pushBack 7, .popFront, .pushBack 9] = some h ∧
      h.pendingJobs = [7, 9] ∧ h.queue.TearsDown h.pendingJobs := by
  have hrun : ∃ h : History Nat,
      Lts.exec step (init 4) [.pushBack 5, .pushBack 7, .popFront, .pushBack 9] = some h ∧
      h.pendingJobs = [7, 9] ∧ h.numPending = 2 ∧ h.queue.front = 1 := ⟨_, rfl, rfl, rfl, rfl⟩
  obtain ⟨h, hexec, hjobs, hnum, hfront⟩ := hrun
  refine ⟨h, hexec, hjobs, (teardown_iff hexec (by rw [hnum]; decide)).2.mpr (Or.inr ?_)⟩
  rw [hnum, hfront]
  decide

/-- A queue of two places that two jobs have gone through: the third job is in
slot 0, and the loop takes slot 2 of the array. -/
theorem teardown_second_lap :
    ∃ h : History Nat,
      Lts.exec step (init 2) [.pushBack 5, .popFront, .pushBack 7, .popFront, .pushBack 9] =
        some h ∧
      h.pendingJobs = [9] ∧ h.numPending < 2 ∧ h.queue.queue 0 = some 9 ∧
      h.queue.destroy 2 h.queue.front = some [2] ∧ ¬ h.queue.TearsDown h.pendingJobs := by
  have hrun : ∃ h : History Nat,
      Lts.exec step (init 2) [.pushBack 5, .popFront, .pushBack 7, .popFront, .pushBack 9] =
        some h ∧
      h.pendingJobs = [9] ∧ h.numPending < 2 ∧ h.queue.queue 0 = some 9 ∧
      h.queue.destroy 2 h.queue.front = some [2] ∧ h.queue.front = 2 :=
    ⟨_, rfl, rfl, by decide, rfl, rfl, rfl⟩
  obtain ⟨h, hexec, hjobs, hnum, hslot, hdestroy, hfront⟩ := hrun
  have hs := slots_of_exec hexec
  rw [hjobs] at hs
  refine ⟨h, hexec, hjobs, hnum, hslot, hdestroy, ?_⟩
  rw [hjobs, hs.tearsDown_iff (by decide), hfront]
  decide

end History

end JobQueue

end Ibdxnet.Con
