import Ibdxnet.Dx.RecvBufferPoolReturns

/-!
# The pool's steps in 32 bit words

The pool and its threads as the code computes them, in `uint32_t`.  With fewer
than `2 ^ 31` buffers no sum of a reachable state wraps: the positions are below
the number of slots, and what a call takes, brings back or has reserved is at
most all buffers.  The steps are then those in exact arithmetic,

    s.step .uint32 a = s.step .exact a        in every reachable state   (Inv.step_eq)

and so are the runs.  The two results about them:

    every slot from front to back is filled, if the back pointer is moved in
    turn                                              (filled_of_publishedInTurn)
    no call throws  ↔  no call is overtaken at its check
                                                      (return_never_throws_iff)
-/

namespace Ibdxnet.Dx

namespace PoolSystem

variable {Tid : Type} [DecidableEq Tid]

/-! ## The number of buffers stays -/

omit [DecidableEq Tid] in
theorem consumerStep_bufferPoolSize {A : Arith} {s s' : PoolSystem Tid}
    (hs : s.consumerStep A = some s') : s'.pool.bufferPoolSize = s.pool.bufferPoolSize := by
  unfold PoolSystem.consumerStep at hs
  cases hc : s.consumer with
  | idle | thrown =>
    rw [hc] at hs
    cases hs
  | loadFront | clearSlot | storeFront =>
    rw [hc] at hs
    obtain rfl := Option.some.inj hs
    rfl
  | loadBack call front =>
    rw [hc] at hs
    simp only at hs
    split at hs
    · obtain rfl := Option.some.inj hs
      rfl
    cases call with
    | getBuffer =>
      obtain rfl := Option.some.inj hs
      rfl
    | getBuffers count =>
      simp only at hs
      split at hs <;> split at hs <;> obtain rfl := Option.some.inj hs <;> rfl
  | readSlot front count i retBuffers =>
    rw [hc] at hs
    simp only at hs
    split at hs <;> obtain rfl := Option.some.inj hs <;> rfl

theorem producerStep_bufferPoolSize {A : Arith} {s s' : PoolSystem Tid} {t : Tid}
    {spurious : Bool} (hs : s.producerStep A t spurious = some s') :
    s'.pool.bufferPoolSize = s.pool.bufferPoolSize := by
  unfold PoolSystem.producerStep at hs
  cases ht : s.producers t with
  | idle | thrown =>
    rw [ht] at hs
    cases hs
  | loadBackRes buffers =>
    rw [ht] at hs
    obtain rfl := Option.some.inj hs
    rfl
  | loadFront | casBackRes | checkSlot | casBack =>
    rw [ht] at hs
    simp only at hs
    split at hs <;> obtain rfl := Option.some.inj hs <;> rfl
  | writeSlot buffers backRes i =>
    rw [ht] at hs
    simp only at hs
    split at hs
    · cases hs
    · obtain rfl := Option.some.inj hs
      rfl

theorem step_bufferPoolSize {A : Arith} {s s' : PoolSystem Tid} {a : PoolAction Tid}
    (hs : s.step A a = some s') : s'.pool.bufferPoolSize = s.pool.bufferPoolSize := by
  cases a with
  | get call | ret t buffers =>
    simp only [PoolSystem.step, Option.ite_none_right_eq_some, Option.some.injEq] at hs
    obtain ⟨-, rfl⟩ := hs
    rfl
  | consume => exact consumerStep_bufferPoolSize hs
  | produce t spurious => exact producerStep_bufferPoolSize hs

end PoolSystem

namespace CountedPool

open PoolSystem

/-! ## No sum wraps -/

theorem sizeGapped_eq {Tid : Type} {c : CountedPool Tid} {A : Arith}
    (hA : A.ExactBelow (2 * c.system.pool.bufferPoolSizeGapped)) :
    c.system.pool.sizeGapped A = c.system.pool.bufferPoolSizeGapped := by
  have hg : c.system.pool.bufferPoolSizeGapped = c.system.pool.bufferPoolSize + 1 := rfl
  exact RecvBufferPool.sizeGapped_eq hA (by omega)

/-- The sum of a position and a number of buffers. -/
theorem add_eq {Tid : Type} {c : CountedPool Tid} {A : Arith}
    (hA : A.ExactBelow (2 * c.system.pool.bufferPoolSizeGapped)) {p n : Nat}
    (hp : p < c.system.pool.bufferPoolSizeGapped) (hn : n ≤ c.system.pool.bufferPoolSize) :
    A.add p n = p + n := by
  have hg : c.system.pool.bufferPoolSizeGapped = c.system.pool.bufferPoolSize + 1 := rfl
  exact hA.add (by omega)

section
variable {Tid : Type} [Fintype Tid] {c : CountedPool Tid} {B : Nat} {pos : Tid → Nat}
  {A : Arith} (h : c.Inv B pos)

include h

/-- A call that has reserved nothing yet brings back at most all buffers. -/
theorem Inv.pending_le (t : Tid) :
    (c.system.producers t).pending ≤ c.system.pool.bufferPoolSize := by
  have hsum := Finset.single_le_sum (f := fun u => (c.system.producers u).pending)
    (fun _ _ => Nat.zero_le _) (Finset.mem_univ t)
  have hcapacity := h.capacity
  have hle := h.front_le_back
  have hback := h.back_le_backRes
  simp only [outside] at hcapacity
  omega

/-- A call has reserved at most as many slots as there are buffers. -/
theorem Inv.numReserved_le (t : Tid) :
    (c.system.producers t).numReserved ≤ c.system.pool.bufferPoolSize := by
  have hsum := Finset.single_le_sum (f := fun u => (c.system.producers u).numReserved)
    (fun _ _ => Nat.zero_le _) (Finset.mem_univ t)
  have hcapacity := h.capacity
  have hle := h.front_le_back
  have hback := h.back_le_backRes
  simp only [numReserved] at hback
  omega

variable (hA : A.ExactBelow (2 * c.system.pool.bufferPoolSizeGapped))

include hA

theorem Inv.consumerStep_eq : c.system.consumerStep A = c.system.consumerStep .exact := by
  have hg : c.system.pool.bufferPoolSizeGapped = c.system.pool.bufferPoolSize + 1 := rfl
  have hsize := sizeGapped_eq hA
  have hbackRes := h.backRes_le
  have hlt : ∀ p, p % c.system.pool.bufferPoolSizeGapped < c.system.pool.bufferPoolSizeGapped :=
    fun p => Nat.mod_lt _ (Nat.zero_lt_succ _)
  have hwf := h.consumer
  unfold PoolSystem.consumerStep
  cases hc : c.system.consumer with
  | idle | loadFront | thrown => rfl
  | loadBack call front =>
    rw [hc] at hwf
    have hfront : front < c.system.pool.bufferPoolSizeGapped := by
      rw [show front = _ from hwf.resolve_left nofun]
      exact hlt c.front
    have hback : c.system.pool.dataBuffersBack < c.system.pool.bufferPoolSizeGapped := by
      rw [h.back_eq]
      exact hlt B
    have havailable : (if front ≤ c.system.pool.dataBuffersBack then
        A.sub c.system.pool.dataBuffersBack front
        else A.add (A.sub c.system.pool.bufferPoolSize front) c.system.pool.dataBuffersBack) =
        if front ≤ c.system.pool.dataBuffersBack then
        Arith.exact.sub c.system.pool.dataBuffersBack front
        else Arith.exact.add (Arith.exact.sub c.system.pool.bufferPoolSize front)
          c.system.pool.dataBuffersBack := by
      split
      · exact hA.sub ‹_› (by omega)
      · rw [hA.sub (by omega) (by omega)]
        exact hA.add (by omega)
    simp only
    rw [havailable]
  | readSlot front count i retBuffers | clearSlot front count i retBuffers buffer =>
    rw [hc] at hwf
    obtain ⟨hfront, hi, hcount, -⟩ := hwf.resolve_left nofun
    have hsum : A.add front i = front + i :=
      add_eq hA (hfront ▸ hlt c.front) (by omega)
    simp only [hsize, hsum, RecvBufferPool.sizeGapped_exact, Arith.exact_add]
  | storeFront front count retBuffers =>
    rw [hc] at hwf
    obtain ⟨hfront, hcount, -⟩ := hwf.resolve_left nofun
    have hsum : A.add front count = front + count :=
      add_eq hA (hfront ▸ hlt c.front) (by omega)
    simp only [hsize, hsum, RecvBufferPool.sizeGapped_exact, Arith.exact_add]

theorem Inv.producerStep_eq [DecidableEq Tid] (t : Tid) (spurious : Bool) :
    c.system.producerStep A t spurious = c.system.producerStep .exact t spurious := by
  have hsize := sizeGapped_eq hA
  have hlt : ∀ p, p % c.system.pool.bufferPoolSizeGapped < c.system.pool.bufferPoolSizeGapped :=
    fun p => Nat.mod_lt _ (Nat.zero_lt_succ _)
  have hpending := h.pending_le t
  have hreserved := h.numReserved_le t
  have hwf := h.producer t
  unfold PoolSystem.producerStep
  cases ht : c.system.producers t with
  | idle | loadBackRes | thrown => rfl
  | loadFront buffers backRes | casBackRes buffers backRes =>
    rw [ht] at hpending
    have hlocal := (h.loaded t backRes (by rw [ht]; rfl)).1
    have hsum : A.add backRes buffers.length = backRes + buffers.length :=
      add_eq hA (hlocal ▸ hlt _) hpending
    simp only
    rw [hsize, hsum]
    rfl
  | checkSlot buffers backRes i | writeSlot buffers backRes i =>
    rw [ht] at hreserved hwf
    have hslot : backRes = pos t % c.system.pool.bufferPoolSizeGapped :=
      (h.reserved t ⟨backRes, buffers.length, i⟩ (by rw [ht]; rfl)).1
    have hsum : A.add backRes i = backRes + i :=
      add_eq hA (hslot ▸ hlt _) (Nat.le_trans (Nat.le_of_lt hwf) hreserved)
    simp only
    rw [hsize, hsum]
    rfl
  | casBack buffers backRes reserved =>
    rw [ht] at hreserved
    simp only
    split
    · next hcas =>
      -- the local stands where the back pointer does, whosever position that is
      have hsum : A.add backRes buffers.length = backRes + buffers.length :=
        add_eq hA (by rw [← hcas.1, h.back_eq]; exact hlt B) hreserved
      rw [hsize, hsum]
      rfl
    · rfl

/-- **The steps in words are those in exact arithmetic.** -/
theorem Inv.step_eq [DecidableEq Tid] (a : PoolAction Tid) :
    c.system.step A a = c.system.step .exact a := by
  cases a with
  | get | ret => rfl
  | consume => exact h.consumerStep_eq hA
  | produce t spurious => exact h.producerStep_eq hA t spurious

end

/-! ## Runs -/

section
variable {Tid : Type} [Fintype Tid] {n : Nat}

/-- A counted pool of `n` buffers, as all runs leave it. -/
def Valid (n : Nat) (c : CountedPool Tid) : Prop :=
  c.system.pool.bufferPoolSize = n ∧ ∃ B pos, c.Inv B pos

theorem valid_init (n : Nat) : Valid n (init n : CountedPool Tid) := ⟨rfl, _, _, init_inv n⟩

variable [DecidableEq Tid]

theorem Valid.step {c c' : CountedPool Tid} {a : PoolAction Tid} (h : Valid n c)
    (hs : c.step .exact a = some c') : Valid n c' := by
  obtain ⟨hsize, B, pos, hinv⟩ := h
  have hsystem := system_step .exact c a
  rw [hs] at hsystem
  exact ⟨(step_bufferPoolSize hsystem.symm).trans hsize, hinv.step hs⟩

theorem Valid.system_step_eq {c : CountedPool Tid} (h : Valid n c) (hn : n < 2 ^ 31)
    (a : PoolAction Tid) : c.system.step .exact a = c.system.step .uint32 a := by
  obtain ⟨hsize, B, pos, hinv⟩ := h
  refine (hinv.step_eq (Arith.uint32_exactBelow.mono ?_) a).symm
  rw [RecvBufferPool.bufferPoolSizeGapped, hsize]
  omega

theorem Valid.step_eq {c : CountedPool Tid} (h : Valid n c) (hn : n < 2 ^ 31)
    (a : PoolAction Tid) : c.step .exact a = c.step .uint32 a := by
  rw [CountedPool.step, CountedPool.step, h.system_step_eq hn]

/-- **The runs in words are those in exact arithmetic.** -/
theorem exec_eq (hn : n < 2 ^ 31) (as : List (PoolAction Tid)) :
    Lts.exec (step .exact) (init n) as = Lts.exec (step .uint32) (init n) as :=
  Lts.exec_congr (I := Valid n) (fun _ a h => h.step_eq hn a) (fun _ _ _ h => h.step)
    (valid_init n)

theorem system_exec_eq (hn : n < 2 ^ 31) (as : List (PoolAction Tid)) :
    Lts.exec (PoolSystem.step .exact) (PoolSystem.init n : PoolSystem Tid) as =
      Lts.exec (PoolSystem.step .uint32) (PoolSystem.init n) as := by
  rw [← system_exec, ← system_exec, exec_eq hn]

end


end CountedPool

/-! ## Published in turn -/

namespace PoolSystem

section
variable {Tid : Type} [Fintype Tid] [DecidableEq Tid] {n : Nat}

theorem along_eq (hn : n < 2 ^ 31) {P : PoolSystem Tid → PoolAction Tid → Prop}
    (as : List (PoolAction Tid)) :
    Lts.Along (step .exact) P (init n) as ↔ Lts.Along (step .uint32) P (init n) as := by
  refine Lts.along_congr_step
    (I := fun s => ∃ c : CountedPool Tid, c.system = s ∧ CountedPool.Valid n c) ?_ ?_
    ⟨.init n, rfl, CountedPool.valid_init n⟩
  · rintro s a ⟨c, rfl, hc⟩
    exact hc.system_step_eq hn a
  · rintro s a t ⟨c, rfl, hc⟩ hs
    rw [← CountedPool.system_step] at hs
    obtain ⟨c', hc', rfl⟩ := Option.map_eq_some_iff.mp hs
    exact ⟨c', rfl, hc.step hc'⟩

/-- In a run whose threads move the back pointer from their own reservations,
the slots from front to back are filled and the consumer never throws. -/
theorem filled_of_publishedInTurn (hn : n < 2 ^ 31) (as : List (PoolAction Tid))
    {s : PoolSystem Tid} (hrun : Lts.exec (step .uint32) (init n) as = some s)
    (hturn : Lts.Along (step .uint32) PublishedInTurn (init n) as) :
    s.SlotsFilled s.consumer.taken ∧ s.consumer ≠ .thrown := by
  rw [← CountedPool.system_exec_eq hn] at hrun
  rw [← along_eq hn] at hturn
  obtain ⟨F, B, R, pos, h⟩ := exists_inv_of_publishedInTurn n as hrun hturn
  refine ⟨h.slotsFilled, fun hthrown => ?_⟩
  have hwf := h.consumer
  rw [hthrown] at hwf
  exact hwf

end

/-! Two producing threads. -/

def thread₀ : Fin 2 := ⟨0, Nat.two_pos⟩

def thread₁ : Fin 2 := ⟨1, Nat.one_lt_two⟩

/-- Thread 1 fills its slot first and waits until thread 0 has published. -/
def inTurn : List (PoolAction (Fin 2)) :=
  [.get (.getBuffers 2), .consume, .consume, .consume, .consume, .consume, .consume, .consume,
    .ret thread₀ [0], .produce thread₀ false, .produce thread₀ false, .produce thread₀ false,
    .ret thread₁ [1], .produce thread₁ false, .produce thread₁ false, .produce thread₁ false,
    .produce thread₁ false, .produce thread₁ false, .produce thread₀ false,
    .produce thread₀ false, .produce thread₀ false, .produce thread₁ false]

theorem filled_of_publishedInTurn_two : ∃ s : PoolSystem (Fin 2),
    Lts.exec (step .uint32) (init 2) inTurn = some s ∧ s.SlotsFilled s.consumer.taken ∧
      s.consumer ≠ .thrown :=
  ⟨_, rfl, filled_of_publishedInTurn (show 2 < 2 ^ 31 by decide) inTurn rfl (by decide)⟩

/-- Thread 1 reserves after thread 0, fills its slot, fails its first
publishing compare-exchange and succeeds with the second. -/
def outOfTurn : List (PoolAction (Fin 2)) :=
  [.get (.getBuffers 2), .consume, .consume, .consume, .consume, .consume, .consume, .consume,
    .ret thread₀ [0], .produce thread₀ false, .produce thread₀ false, .produce thread₀ false,
    .ret thread₁ [1], .produce thread₁ false, .produce thread₁ false, .produce thread₁ false,
    .produce thread₁ false, .produce thread₁ false, .produce thread₁ false,
    .produce thread₁ false]

/-- The slot of thread 0 is then between front and back and empty, no call of
the consumer is running, and its next call throws. -/
theorem outOfTurn_not_slotsFilled : ∃ s s' : PoolSystem (Fin 2),
    Lts.exec (step .uint32) (init 2) outOfTurn = some s ∧ s.consumer = .idle ∧
      ¬ s.SlotsFilled 0 ∧
      Lts.exec (step .uint32) s [.get .getBuffer, .consume, .consume, .consume] = some s' ∧
      s'.consumer = .thrown := by
  refine ⟨_, _, rfl, rfl, fun h => absurd (h 0 (by decide) (Nat.le_refl 0)) (by decide), rfl, rfl⟩

end PoolSystem

/-! ## Overtaken -/

namespace CountedPool

open PoolSystem

section
variable {Tid : Type} [Fintype Tid] [DecidableEq Tid] {n : Nat}

/-- In exact arithmetic, the runs in which no thread throws. -/
theorem forall_not_thrown_iff {as : List (PoolAction Tid)} {c : CountedPool Tid}
    (hrun : Lts.exec (step .exact) (init n) as = some c) :
    (∀ bs, bs <+: as → ∀ c', Lts.exec (step .exact) (init n) bs = some c' →
        ∀ t, c'.system.producers t ≠ .thrown) ↔
      Lts.Along (step .exact) NotOvertaken (init n) as := by
  refine Lts.forall_prefix_iff_along (Q := fun c => ∀ t, c.system.producers t ≠ .thrown)
    (I := fun c => (∃ B pos, c.Inv B pos) ∧ ∀ t, c.system.producers t ≠ .thrown)
    (fun c hc => hc.2) ?_ ?_ ⟨⟨_, _, init_inv n⟩, fun t => by simp [init,
      PoolSystem.init]⟩ hrun
  · rintro c a c' ⟨⟨B, pos, h⟩, hnone⟩ hp hs
    exact ⟨h.step hs, (h.step_thrown_iff hnone hs).mpr hp⟩
  · rintro c a c' ⟨⟨B, pos, h⟩, hnone⟩ hs hnone'
    exact (h.step_thrown_iff hnone hs).mp hnone'

/-- **No call of a run throws exactly if no call is overtaken at its overflow
check**, and no slot that is about to be written holds a buffer, in any run. -/
theorem return_never_throws_iff (hn : n < 2 ^ 31) (as : List (PoolAction Tid))
    {s : PoolSystem Tid} (hrun : Lts.exec (PoolSystem.step .uint32) (.init n) as = some s) :
    ((∀ bs, bs <+: as → ∀ s', Lts.exec (PoolSystem.step .uint32) (.init n) bs = some s' →
        ∀ t, s'.producers t ≠ .thrown) ↔
      Lts.Along (step .uint32) NotOvertaken (init n) as) ∧
    ∀ t buffers backRes i, s.producers t = .checkSlot buffers backRes i →
      s.pool.dataBuffers ((backRes + i) % s.pool.bufferPoolSizeGapped) = none := by
  obtain ⟨c, hcounted, rfl⟩ := exists_counted hrun
  rw [← exec_eq hn] at hcounted
  have halong : Lts.Along (step .exact) NotOvertaken (init n : CountedPool Tid) as ↔
      Lts.Along (step .uint32) NotOvertaken (init n) as :=
    Lts.along_congr_step (I := Valid n) (fun _ a h => h.step_eq hn a) (fun _ _ _ h => h.step)
      (valid_init n)
  constructor
  · rw [← halong, ← forall_not_thrown_iff hcounted]
    constructor
    · intro hall bs hbs c' hc'
      refine hall bs hbs c'.system ?_
      rw [← system_exec, ← exec_eq hn, hc']
      rfl
    · intro hall bs hbs s' hs'
      obtain ⟨c', hc', rfl⟩ := exists_counted hs'
      rw [← exec_eq hn] at hc'
      exact hall bs hbs c' hc'
  · obtain ⟨B, pos, h⟩ := exists_inv hcounted
    exact fun t buffers backRes i ht => h.checkSlot_isNull ht

end

/-- Both threads return the buffer they have, one after the other. -/
theorem return_never_throws_two : ∃ s : PoolSystem (Fin 2),
    Lts.exec (PoolSystem.step .uint32) (.init 2) inTurn = some s ∧ s.handedOut = [] ∧
      ∀ t, s.producers t ≠ .thrown :=
  ⟨_, rfl, rfl, (return_never_throws_iff (show 2 < 2 ^ 31 by decide) inTurn rfl).1.mpr
    (by decide) inTurn (List.prefix_refl _) _ rfl⟩

/-- Between the two reads of thread 0, thread 1 returns its buffer and the
consumer gets it: the front stands where the reserved back pointer would. -/
def overtaken : List (PoolAction (Fin 2)) :=
  [.get (.getBuffers 2), .consume, .consume, .consume, .consume, .consume, .consume, .consume,
    .ret thread₀ [0], .produce thread₀ false,
    .ret thread₁ [1], .produce thread₁ false, .produce thread₁ false, .produce thread₁ false,
    .produce thread₁ false, .produce thread₁ false, .produce thread₁ false,
    .get .getBuffer, .consume, .consume, .consume, .consume, .consume,
    .produce thread₀ false]

/-- Thread 0 throws, with both buffers outside the pool and nothing published
out of turn. -/
theorem overtaken_throws : ∃ s : PoolSystem (Fin 2),
    Lts.exec (PoolSystem.step .uint32) (.init 2) overtaken = some s ∧
      Lts.Along (PoolSystem.step .uint32) PublishedInTurn (.init 2) overtaken ∧
      s.producers thread₀ = .thrown ∧ s.handedOut = [1] := by
  refine ⟨_, rfl, by decide, rfl, rfl⟩

end CountedPool

end Ibdxnet.Dx
