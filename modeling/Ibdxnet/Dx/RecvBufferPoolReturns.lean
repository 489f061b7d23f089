import Ibdxnet.Dx.RecvBufferPoolSteps

/-!
# Returning buffers to the pool

The two checks of `ReturnBuffer`/`ReturnBuffers`, in every interleaving with the
consumer.

*Overwriting existing buffer* never throws, not even once the back pointer has
been moved out of turn: the slots behind the reserved back pointer are empty,
and the consumer has cleared every slot it has passed.

*Pool overflow* compares the reserved back pointer as the thread has read it
with a front pointer that it reads later.  `CountedPool` keeps, along with the
pool, the positions the pointers stand for and for every thread the position it
has read.  The check throws when the consumer has come to the first position
behind the buffers of the call in the meantime, or whole laps further:

    the step makes no thread throw  ↔  no call is overtaken at its check
                                                            (Inv.step_thrown_iff)

Both are about exact arithmetic; `RecvBufferPoolWords` carries them over to
`uint32_t`.
-/

namespace Ibdxnet.Dx

/-! ## The pool with its positions -/

/-- How far the consumer's next access moves the front pointer. -/
def ConsumerPc.frontMove : ConsumerPc → Nat
  | .storeFront _ count _ => count
  | _ => 0

/-- How far a producer's next access moves the reserved back pointer. -/
def ProducerPc.backResMove : ProducerPc → Nat → Bool → Nat
  | .casBackRes buffers backRes, current, false => if current = backRes then buffers.length else 0
  | _, _, _ => 0

/-- The next access reads the reserved back pointer into the local; the
compare-exchange does where it fails. -/
def ProducerPc.readsBackRes : ProducerPc → Bool
  | .loadBackRes _ | .casBackRes _ _ => true
  | _ => false

/-- The next access is the overflow check, and the front has come to the first
position behind the buffers, counted from what the thread has read, or whole
laps further. -/
def ProducerPc.Overtaken : ProducerPc → Nat → Nat → Nat → Prop
  | .loadFront buffers _, loaded, front, size =>
    loaded + buffers.length ≤ front ∧ (front - (loaded + buffers.length)) % size = 0
  | _, _, _, _ => False

instance ProducerPc.Overtaken.instDecidable :
    ∀ (pc : ProducerPc) (loaded front size : Nat), Decidable (pc.Overtaken loaded front size)
  | .loadFront _ _, _, _, _ => inferInstanceAs (Decidable (_ ∧ _))
  | .idle, _, _, _ | .loadBackRes _, _, _, _ | .casBackRes _ _, _, _, _ | .checkSlot _ _ _, _, _, _
  | .writeSlot _ _ _, _, _, _ | .casBack _ _ _, _, _, _ | .thrown, _, _, _ => isFalse id

/-- A pool with the positions its pointers stand for, counted without wrapping. -/
structure CountedPool (Tid : Type) where
  system : PoolSystem Tid
  front : Nat
  backRes : Nat
  /-- the position of the reserved back pointer when the thread last read it -/
  loaded : Tid → Nat

namespace CountedPool

variable {Tid : Type} [DecidableEq Tid]

omit [DecidableEq Tid] in
def init (bufferPoolSize : Nat) : CountedPool Tid where
  system := .init bufferPoolSize
  front := 0
  backRes := bufferPoolSize
  loaded _ := 0

/-- The positions after an action that leads to `system`. -/
def moveOn (c : CountedPool Tid) (system : PoolSystem Tid) : PoolAction Tid → CountedPool Tid
  | .get _ | .ret _ _ => { c with system }
  | .consume => { c with system, front := c.front + c.system.consumer.frontMove }
  | .produce t spurious =>
    { c with
      system
      backRes := c.backRes +
        (c.system.producers t).backResMove c.system.pool.dataBuffersBackRes spurious
      loaded := if (c.system.producers t).readsBackRes then Function.update c.loaded t c.backRes
        else c.loaded }

def step (A : Arith) (c : CountedPool Tid) (a : PoolAction Tid) : Option (CountedPool Tid) :=
  (c.system.step A a).map fun system => c.moveOn system a

omit [DecidableEq Tid] in
/-- The consumer has not overtaken a thread that is about to check for overflow. -/
def NotOvertaken (c : CountedPool Tid) : PoolAction Tid → Prop
  | .produce t _ => ¬ (c.system.producers t).Overtaken (c.loaded t) c.front
      c.system.pool.bufferPoolSizeGapped
  | _ => True

omit [DecidableEq Tid] in
instance NotOvertaken.instDecidable (c : CountedPool Tid) : ∀ a, Decidable (c.NotOvertaken a)
  | .produce _ _ => inferInstanceAs (Decidable (¬ _))
  | .get _ | .consume | .ret _ _ => isTrue trivial

/-- Counting changes nothing about the pool. -/
theorem system_step (A : Arith) (c : CountedPool Tid) (a : PoolAction Tid) :
    (c.step A a).map system = c.system.step A a := by
  have hsystem : ∀ s, (c.moveOn s a).system = s := by
    intro s
    cases a <;> rfl
  rw [step, Option.map_map]
  cases c.system.step A a with
  | none => rfl
  | some s => exact congrArg some (hsystem s)

/-- The runs of the pool are those of the counted pool. -/
theorem system_exec (A : Arith) (bufferPoolSize : Nat) (as : List (PoolAction Tid)) :
    (Lts.exec (step A) (init bufferPoolSize) as).map system =
      Lts.exec (PoolSystem.step A) (PoolSystem.init bufferPoolSize) as :=
  Lts.exec_map (system_step A) (init bufferPoolSize) as

end CountedPool

/-! ## Invariant

The invariant holds whether or not the back pointer is moved in turn, and whether
or not a thread has thrown: the positions up to `B` may be empty, but the slots
that are to be written are. -/

/-- The local that holds the reserved back pointer, before the reservation. -/
def ProducerPc.backResLocal : ProducerPc → Option Nat
  | .loadFront _ backRes | .casBackRes _ backRes => some backRes
  | _ => none

/-- How many slots a call has reserved and not published. -/
def ProducerPc.numReserved : ProducerPc → Nat
  | .checkSlot buffers _ _ | .writeSlot buffers _ _ | .casBack buffers _ _ => buffers.length
  | _ => 0

theorem ConsumerPc.WellFormed.passed_le {pc : ConsumerPc} {F B size : Nat}
    (h : pc = .thrown ∨ pc.WellFormed F B size) (hle : F ≤ B) : F + pc.passed ≤ B := by
  rcases h with rfl | h
  · exact hle
  cases pc with
  | clearSlot front count i retBuffers buffer =>
    obtain ⟨-, hi, hcount, -⟩ := h
    change F + (i + 1) ≤ B
    omega
  | readSlot front count i retBuffers =>
    obtain ⟨-, hi, hcount, -⟩ := h
    change F + i ≤ B
    omega
  | storeFront front count retBuffers => exact h.2.1
  | idle | loadFront | loadBack | thrown => exact hle

namespace PoolSystem

variable {Tid : Type}

/-- The slot of position `k` is null. -/
def IsNull (s : PoolSystem Tid) (k : Nat) : Prop :=
  s.pool.dataBuffers (k % s.pool.bufferPoolSizeGapped) = none

theorem IsNull.setSlot_none {s : PoolSystem Tid} {k : Nat} (h : s.IsNull k) (slot : Nat) :
    PoolSystem.IsNull { s with pool := s.pool.setSlot slot none } k := by
  change Function.update s.pool.dataBuffers slot none (k % s.pool.bufferPoolSizeGapped) = none
  rw [Function.update_apply]
  split
  · rfl
  · exact h

variable [Fintype Tid]

def numReserved (s : PoolSystem Tid) : Nat := ∑ t, (s.producers t).numReserved

theorem numReserved_setProducer [DecidableEq Tid] (s : PoolSystem Tid) (t : Tid)
    (pc : ProducerPc) : (s.setProducer t pc).numReserved + (s.producers t).numReserved =
      s.numReserved + pc.numReserved := by
  have := Sums.sum_update ProducerPc.numReserved s.producers t pc
  simp only [numReserved, setProducer]
  omega

end PoolSystem

namespace CountedPool

open PoolSystem

variable {Tid : Type} [Fintype Tid]

structure Inv (c : CountedPool Tid) (B : Nat) (pos : Tid → Nat) : Prop where
  front_eq : c.system.pool.dataBuffersFront = c.front % c.system.pool.bufferPoolSizeGapped
  back_eq : c.system.pool.dataBuffersBack = B % c.system.pool.bufferPoolSizeGapped
  backRes_eq : c.system.pool.dataBuffersBackRes = c.backRes % c.system.pool.bufferPoolSizeGapped
  front_le_back : c.front ≤ B
  back_le_backRes : B + c.system.numReserved ≤ c.backRes
  capacity : c.backRes + c.system.outside ≤ c.front + c.system.pool.bufferPoolSize
  consumer : c.system.consumer = .thrown ∨
    c.system.consumer.WellFormed c.front B c.system.pool.bufferPoolSizeGapped
  producer : ∀ t, (c.system.producers t).WellFormed
  loaded : ∀ t n, (c.system.producers t).backResLocal = some n →
    n = c.loaded t % c.system.pool.bufferPoolSizeGapped ∧ c.loaded t ≤ c.backRes
  cleared : ∀ k, c.front ≤ k → k < c.front + c.system.consumer.taken → c.system.IsNull k
  free : ∀ k, c.backRes ≤ k → k ≤ c.front + c.system.pool.bufferPoolSize → c.system.IsNull k
  reserved : ∀ t r, (c.system.producers t).reservation = some r →
    r.slot = pos t % c.system.pool.bufferPoolSizeGapped ∧ pos t + r.length ≤ c.backRes ∧
      ∀ k, pos t + r.written ≤ k → k < pos t + r.length →
        c.front + c.system.consumer.passed ≤ k ∧ c.system.IsNull k
  disjoint : c.system.DisjointSpans pos

variable {c : CountedPool Tid} {B : Nat} {pos : Tid → Nat}

theorem Inv.passed_le (h : c.Inv B pos) : c.front + c.system.consumer.passed ≤ B :=
  ConsumerPc.WellFormed.passed_le h.consumer h.front_le_back

/-- The positions from front to reserved back are in different slots, and not in the gap. -/
theorem Inv.backRes_le (h : c.Inv B pos) :
    B ≤ c.backRes ∧ c.backRes ≤ c.front + c.system.pool.bufferPoolSize := by
  have h1 := h.back_le_backRes
  have h2 := h.capacity
  omega

/-! ### The consumer -/

theorem Inv.setConsumer (h : c.Inv B pos) {pc : ConsumerPc}
    (hpc : pc = .thrown ∨ pc.WellFormed c.front B c.system.pool.bufferPoolSizeGapped)
    (hcleared : ∀ k, c.front ≤ k → k < c.front + pc.taken → c.system.IsNull k)
    (hpassed : ∀ k, c.front + c.system.consumer.passed ≤ k → c.system.IsNull k →
      c.front + pc.passed ≤ k) :
    Inv { c with system := { c.system with consumer := pc } } B pos :=
  { h with
    consumer := hpc
    cleared := hcleared
    reserved := by
      intro t r hr
      obtain ⟨hslot, hend, hunwritten⟩ := h.reserved t r hr
      refine ⟨hslot, hend, fun k hk hk' => ?_⟩
      obtain ⟨hlow, hnull⟩ := hunwritten k hk hk'
      exact ⟨hpassed k hlow hnull, hnull⟩ }

/-- A consumer that moves on without a slot access. -/
theorem Inv.setConsumer_of_le (h : c.Inv B pos) {pc : ConsumerPc}
    (hpc : pc = .thrown ∨ pc.WellFormed c.front B c.system.pool.bufferPoolSizeGapped)
    (htaken : pc.taken ≤ c.system.consumer.taken)
    (hpassed : pc.passed ≤ c.system.consumer.passed) :
    Inv { c with system := { c.system with consumer := pc } } B pos :=
  h.setConsumer hpc (fun k h1 h2 => h.cleared k h1 (by omega)) (fun k h1 _ => by omega)

theorem Inv.clearSlot (h : c.Inv B pos) (slot : Nat) :
    Inv { c with system := { c.system with pool := c.system.pool.setSlot slot none } } B pos :=
  { h with
    cleared := fun k h1 h2 => (h.cleared k h1 h2).setSlot_none slot
    free := fun k h1 h2 => (h.free k h1 h2).setSlot_none slot
    reserved := by
      intro t r hr
      obtain ⟨hslot, hend, hunwritten⟩ := h.reserved t r hr
      refine ⟨hslot, hend, fun k hk hk' => ?_⟩
      obtain ⟨hlow, hnull⟩ := hunwritten k hk hk'
      exact ⟨hlow, hnull.setSlot_none slot⟩ }

/-- The consumer releases the slots it has cleared. -/
theorem Inv.storeFront (h : c.Inv B pos) {front count : Nat} {retBuffers : List IbMemReg}
    (hc : c.system.consumer = .storeFront front count retBuffers) :
    Inv { c with
      system := { c.system with
        pool := { c.system.pool with
          dataBuffersFront := (front + count) % c.system.pool.bufferPoolSizeGapped }
        consumer := .idle
        handedOut := c.system.handedOut ++ retBuffers }
      front := c.front + count } B pos := by
  have hg : c.system.pool.bufferPoolSizeGapped = c.system.pool.bufferPoolSize + 1 := rfl
  obtain ⟨hfront, hcount, hlen⟩ : front = c.front % c.system.pool.bufferPoolSizeGapped ∧
      c.front + count ≤ B ∧ retBuffers.length = count := by
    rcases h.consumer with hthrown | hwf
    · rw [hc] at hthrown
      cases hthrown
    · rw [hc] at hwf
      exact hwf
  have htaken : c.system.consumer.taken = count := by rw [hc]; rfl
  refine ⟨?_, h.back_eq, h.backRes_eq, hcount, h.back_le_backRes, ?_, Or.inr trivial, h.producer,
    h.loaded, fun k h1 h2 => absurd h2 (Nat.not_lt.mpr h1), fun k h1 h2 => ?_, ?_, h.disjoint⟩
  · change (front + count) % c.system.pool.bufferPoolSizeGapped = _
    rw [hfront, Nat.mod_add_mod]
    rfl
  · have hcap := h.capacity
    simp only [outside, List.length_append] at hcap ⊢
    omega
  · replace h2 : k ≤ c.front + count + c.system.pool.bufferPoolSize := h2
    rcases Nat.lt_or_ge (c.front + c.system.pool.bufferPoolSize) k with hgt | hle
    · -- the slots that become free have been cleared a lap before
      have hlap := h.cleared (k - c.system.pool.bufferPoolSizeGapped) (by omega) (by omega)
      have hk : k = k - c.system.pool.bufferPoolSizeGapped +
        c.system.pool.bufferPoolSizeGapped := by omega
      change c.system.IsNull k
      rw [IsNull, hk, Nat.add_mod_right]
      exact hlap
    · exact h.free k h1 hle
  · intro t r hr
    obtain ⟨hslot, hend, hunwritten⟩ := h.reserved t r hr
    refine ⟨hslot, hend, fun k hk hk' => ?_⟩
    obtain ⟨hlow, hnull⟩ := hunwritten k hk hk'
    rw [hc] at hlow
    exact ⟨hlow, hnull⟩

theorem Inv.consumerStep (h : c.Inv B pos) {s : PoolSystem Tid}
    (hs : c.system.consumerStep .exact = some s) :
    Inv { c with system := s, front := c.front + c.system.consumer.frontMove } B pos := by
  have hback := h.backRes_le
  have hwf := h.consumer
  cases hc : c.system.consumer with
  | idle | thrown =>
    simp only [PoolSystem.consumerStep, hc] at hs
    cases hs
  | loadFront call =>
    simp only [PoolSystem.consumerStep, hc] at hs
    obtain rfl := Option.some.inj hs
    exact h.setConsumer_of_le (Or.inr h.front_eq) (Nat.zero_le _) (Nat.zero_le _)
  | loadBack call front =>
    obtain ⟨pc, rfl, hpassed, hpcwf⟩ := consumerStep_loadBack hc h.front_eq h.back_eq
      h.front_le_back (by omega) (hwf.resolve_left (by simp [hc])) hs
    have htaken := pc.taken_le_passed
    exact h.setConsumer_of_le (Or.inr hpcwf) (by omega) (by omega)
  | readSlot front count i retBuffers =>
    simp only [PoolSystem.consumerStep, hc, Arith.exact_add,
      RecvBufferPool.sizeGapped_exact] at hs
    rw [hc] at hwf
    obtain ⟨hfront, hi, hcount, hlen⟩ := hwf.resolve_left (by simp)
    have htaken : c.system.consumer.taken = i := by rw [hc]; rfl
    have hpassed : c.system.consumer.passed = i := by rw [hc]; rfl
    split at hs <;> obtain rfl := Option.some.inj hs
    · exact h.setConsumer_of_le (Or.inl rfl) (Nat.zero_le _) (Nat.zero_le _)
    · next buffer hbuffer =>
      refine h.setConsumer (Or.inr ⟨hfront, hi, hcount, hlen⟩) (fun k h1 h2 => ?_)
        (fun k h1 hnull => ?_)
      · exact h.cleared k h1 (htaken.symm ▸ h2)
      · -- the slot read is filled, so it is not one that is to be written
        have hne : k ≠ c.front + i := by
          rintro rfl
          rw [hfront, Nat.mod_add_mod] at hbuffer
          rw [IsNull, hbuffer] at hnull
          cases hnull
        change c.front + (i + 1) ≤ k
        omega
  | clearSlot front count i retBuffers buffer =>
    simp only [PoolSystem.consumerStep, hc, Arith.exact_add,
      RecvBufferPool.sizeGapped_exact] at hs
    rw [hc] at hwf
    have htaken : c.system.consumer.taken = i := by rw [hc]; rfl
    have hpassed : c.system.consumer.passed = i + 1 := by rw [hc]; rfl
    have hwf := hwf.resolve_left (by simp)
    obtain rfl := Option.some.inj hs
    obtain ⟨hwf', htaken'⟩ := ConsumerPc.WellFormed.clearSlot hwf rfl
    refine (h.clearSlot ((front + i) % c.system.pool.bufferPoolSizeGapped)).setConsumer
      (Or.inr hwf') (fun k h1 h2 => ?_) (fun k h1 _ => ?_)
    · rw [htaken'] at h2
      have hle : k ≤ c.front + i := Nat.le_of_lt_succ h2
      rcases Nat.lt_or_eq_of_le hle with hlt | rfl
      · exact (h.cleared k h1 (by omega)).setSlot_none _
      · rw [hwf.1, Nat.mod_add_mod]
        exact Function.update_self ..
    · replace h1 : c.front + c.system.consumer.passed ≤ k := h1
      split
      · change c.front + (i + 1) ≤ k
        omega
      · next hlast =>
        have hi := hwf.2.1
        change c.front + count ≤ k
        omega
  | storeFront front count retBuffers =>
    simp only [PoolSystem.consumerStep, hc, Arith.exact_add,
      RecvBufferPool.sizeGapped_exact] at hs
    obtain rfl := Option.some.inj hs
    exact h.storeFront hc

/-! ### The producers -/

/-- A buffer is written to a reserved position that no thread is to write. -/
theorem Inv.setSlot (h : c.Inv B pos) {k₀ : Nat}
    (hlow : c.front + c.system.consumer.passed ≤ k₀) (hhigh : k₀ < c.backRes)
    (hwritten : ∀ u r, (c.system.producers u).reservation = some r →
      pos u + r.written ≤ k₀ → pos u + r.length ≤ k₀) (b : IbMemReg) :
    Inv { c with
      system := { c.system with
        pool := c.system.pool.setSlot (k₀ % c.system.pool.bufferPoolSizeGapped) (some b) } }
      B pos := by
  have hg : c.system.pool.bufferPoolSizeGapped = c.system.pool.bufferPoolSize + 1 := rfl
  have hpassed := h.passed_le
  have htaken := c.system.consumer.taken_le_passed
  have hbackRes := h.backRes_le
  -- the positions from the front on are in other slots
  have hkeep : ∀ k, c.front ≤ k → k ≤ c.front + c.system.pool.bufferPoolSize → k ≠ k₀ →
      c.system.IsNull k → PoolSystem.IsNull { c.system with
        pool := c.system.pool.setSlot (k₀ % c.system.pool.bufferPoolSizeGapped) (some b) } k := by
    intro k h1 h2 hne hnull
    change Function.update c.system.pool.dataBuffers
      (k₀ % c.system.pool.bufferPoolSizeGapped) (some b)
      (k % c.system.pool.bufferPoolSizeGapped) = none
    rw [Function.update_of_ne]
    · exact hnull
    · intro heq
      exact hne ((Ring.mod_eq_iff_of_lt h1 (by omega) (by omega) (by omega)).mp heq)
  exact { h with
    cleared := by
      intro k h1 h2
      replace h2 : k < c.front + c.system.consumer.taken := h2
      exact hkeep k h1 (by omega) (by omega) (h.cleared k h1 h2)
    free := by
      intro k h1 h2
      replace h1 : c.backRes ≤ k := h1
      exact hkeep k (by omega) h2 (by omega) (h.free k h1 h2)
    reserved := by
      intro u r hr
      obtain ⟨hslot, hend, hunwritten⟩ := h.reserved u r hr
      refine ⟨hslot, hend, fun k hk hk' => ?_⟩
      obtain ⟨hk₀, hnull⟩ := hunwritten k hk hk'
      refine ⟨hk₀, hkeep k (by omega) (by omega) ?_ hnull⟩
      rintro rfl
      have := hwritten u r hr hk
      omega }

/-- The back pointer may stand anywhere in front of the slots reserved. -/
theorem Inv.setBack (h : c.Inv B pos) {B' : Nat} (hle : B ≤ B')
    (hnum : B' + c.system.numReserved ≤ c.backRes) :
    Inv { c with
      system := { c.system with
        pool := { c.system.pool with
          dataBuffersBack := B' % c.system.pool.bufferPoolSizeGapped } } } B' pos :=
  { h with
    back_eq := rfl
    front_le_back := Nat.le_trans h.front_le_back hle
    back_le_backRes := hnum
    consumer := h.consumer.imp_right fun hwf => hwf.mono hle }

section
variable [DecidableEq Tid] {t : Tid} {pc : ProducerPc} {loaded : Tid → Nat}

/-- A thread goes on to `pc`, without a new reservation. -/
theorem Inv.goTo (h : c.Inv B pos) (loaded : Tid → Nat) (hwf : pc.WellFormed)
    (hcapacity : c.backRes + (c.system.setProducer t pc).outside ≤
      c.front + c.system.pool.bufferPoolSize)
    (hnum : pc.numReserved ≤ (c.system.producers t).numReserved)
    (hother : ∀ u, u ≠ t → loaded u = c.loaded u)
    (hloaded : ∀ n, pc.backResLocal = some n →
      n = loaded t % c.system.pool.bufferPoolSizeGapped ∧ loaded t ≤ c.backRes)
    (hres : ∀ r, pc.reservation = some r → ∃ r₀, (c.system.producers t).reservation = some r₀ ∧
      r₀.slot = r.slot ∧ r₀.length = r.length ∧ r₀.written ≤ r.written) :
    Inv { c with system := c.system.setProducer t pc, loaded } B pos :=
  { h with
    back_le_backRes := by
      have h1 := numReserved_setProducer c.system t pc
      have h2 := h.back_le_backRes
      change B + (c.system.setProducer t pc).numReserved ≤ c.backRes
      omega
    capacity := hcapacity
    producer := by
      intro u
      rw [setProducer_producers]
      split
      · exact hwf
      · exact h.producer u
    loaded := by
      intro u n hn
      rw [setProducer_producers] at hn
      split at hn
      · next hut =>
        subst hut
        exact hloaded n hn
      · next hut =>
        change n = loaded u % _ ∧ loaded u ≤ c.backRes
        rw [hother u hut]
        exact h.loaded u n hn
    reserved := by
      intro u r hr
      rw [setProducer_producers] at hr
      split at hr
      · next hut =>
        subst hut
        obtain ⟨r₀, h₀, hslot, hlen, hwritten⟩ := hres r hr
        obtain ⟨h1, h2, h3⟩ := h.reserved u r₀ h₀
        rw [hslot] at h1
        rw [hlen] at h2 h3
        exact ⟨h1, h2, fun k hk hk' => h3 k (by omega) hk'⟩
      · exact h.reserved u r hr
    disjoint := h.disjoint.setProducer fun r hr => by
      obtain ⟨r₀, h₀, -, hlen, -⟩ := hres r hr
      exact ⟨r₀, h₀, hlen⟩ }

/-- A thread moves on inside its call. -/
theorem Inv.setProducer (h : c.Inv B pos) (loaded : Tid → Nat) (hwf : pc.WellFormed)
    (hpending : pc.pending ≤ (c.system.producers t).pending)
    (hnum : pc.numReserved ≤ (c.system.producers t).numReserved)
    (hother : ∀ u, u ≠ t → loaded u = c.loaded u)
    (hloaded : ∀ n, pc.backResLocal = some n →
      n = loaded t % c.system.pool.bufferPoolSizeGapped ∧ loaded t ≤ c.backRes)
    (hres : ∀ r, pc.reservation = some r → ∃ r₀, (c.system.producers t).reservation = some r₀ ∧
      r₀.slot = r.slot ∧ r₀.length = r.length ∧ r₀.written ≤ r.written) :
    Inv { c with system := c.system.setProducer t pc, loaded } B pos := by
  have h1 := outside_setProducer c.system t pc
  have h2 := h.capacity
  exact h.goTo loaded hwf (by omega) hnum hother hloaded hres

/-- A thread leaves its call. -/
theorem Inv.leave (h : c.Inv B pos) (hpc : pc = .idle ∨ pc = .thrown) :
    Inv { c with system := c.system.setProducer t pc } B pos := by
  rcases hpc with rfl | rfl <;>
    exact h.setProducer c.loaded trivial (Nat.zero_le _) (Nat.zero_le _) (fun _ _ => rfl)
      (fun n hn => by cases hn) (fun r hr => by cases hr)

/-- A thread moves on with the slots it has reserved. -/
theorem Inv.keep (h : c.Inv B pos) (hwf : pc.WellFormed)
    (hres : pc.reservation = (c.system.producers t).reservation)
    (hnum : pc.numReserved = (c.system.producers t).numReserved) (hpending : pc.pending = 0)
    (hlocal : pc.backResLocal = none) :
    Inv { c with system := c.system.setProducer t pc } B pos := by
  refine h.setProducer c.loaded hwf (by omega) (Nat.le_of_eq hnum) (fun _ _ => rfl)
    (fun n hn => ?_) (fun r hr => ?_)
  · rw [hlocal] at hn
    cases hn
  · exact ⟨r, hres.symm.trans hr, rfl, rfl, Nat.le_refl _⟩

/-- A thread reserves the slots from the reserved back pointer on. -/
theorem Inv.reserve (h : c.Inv B pos) {buffers : List IbMemReg} {backRes : Nat}
    (ht : c.system.producers t = .casBackRes buffers backRes)
    (hback : c.system.pool.dataBuffersBackRes = backRes)
    (hother : ∀ u, u ≠ t → loaded u = c.loaded u) :
    Inv { c with
      system := PoolSystem.setProducer { c.system with
        pool := { c.system.pool with dataBuffersBackRes :=
          (backRes + buffers.length) % c.system.pool.bufferPoolSizeGapped } } t
        (.checkSlot buffers backRes 0)
      backRes := c.backRes + buffers.length
      loaded } B (Function.update pos t c.backRes) := by
  have hwf := h.producer t
  rw [ht] at hwf
  have hpassed := h.passed_le
  have hback_le := h.back_le_backRes
  have hcapacity : c.backRes + buffers.length +
      (c.system.setProducer t (.checkSlot buffers backRes 0)).outside ≤
        c.front + c.system.pool.bufferPoolSize := by
    have h1 := outside_setProducer c.system t (.checkSlot buffers backRes 0)
    have h2 := h.capacity
    rw [ht] at h1
    simp only [ProducerPc.pending] at h1
    omega
  exact { h with
    backRes_eq := by
      change (backRes + buffers.length) % c.system.pool.bufferPoolSizeGapped = _
      rw [← hback, h.backRes_eq, Nat.mod_add_mod]
      rfl
    back_le_backRes := by
      have h1 := numReserved_setProducer c.system t (.checkSlot buffers backRes 0)
      rw [ht] at h1
      simp only [ProducerPc.numReserved] at h1
      change B + (c.system.setProducer t (.checkSlot buffers backRes 0)).numReserved ≤
        c.backRes + buffers.length
      omega
    capacity := hcapacity
    producer := by
      intro u
      rw [setProducer_producers]
      split
      · exact hwf
      · exact h.producer u
    loaded := by
      intro u n hn
      rw [setProducer_producers] at hn
      split at hn
      · cases hn
      · next hut =>
        obtain ⟨h1, h2⟩ := h.loaded u n hn
        change n = loaded u % _ ∧ loaded u ≤ c.backRes + buffers.length
        rw [hother u hut]
        exact ⟨h1, Nat.le_add_right_of_le h2⟩
    free := fun k h1 h2 => h.free k (Nat.le_trans (Nat.le_add_right _ _) h1) h2
    reserved := by
      intro u r hr
      rw [setProducer_producers] at hr
      split at hr
      · next hut =>
        subst hut
        obtain rfl := Option.some.inj hr
        rw [Function.update_self]
        refine ⟨hback.symm.trans h.backRes_eq, Nat.le_refl _, fun k hk hk' => ?_⟩
        replace hk : c.backRes ≤ k := hk
        replace hk' : k < c.backRes + buffers.length := hk'
        refine ⟨?_, h.free k hk (by omega)⟩
        change c.front + c.system.consumer.passed ≤ k
        omega
      · next hut =>
        obtain ⟨h1, h2, h3⟩ := h.reserved u r hr
        rw [Function.update_of_ne hut]
        exact ⟨h1, Nat.le_add_right_of_le h2, h3⟩
    disjoint := DisjointSpans.reserve (s := c.system) h.disjoint
      fun u r hr => (h.reserved u r hr).2.1 }

/-- A thread publishes as many slots as it has reserved, whosever they are. -/
theorem Inv.publish (h : c.Inv B pos) {buffers : List IbMemReg} {backRes reserved : Nat}
    (ht : c.system.producers t = .casBack buffers backRes reserved)
    (hback : c.system.pool.dataBuffersBack = backRes) :
    Inv { c with
      system := PoolSystem.setProducer { c.system with
        pool := { c.system.pool with dataBuffersBack :=
          (backRes + buffers.length) % c.system.pool.bufferPoolSizeGapped } } t .idle }
      (B + buffers.length) pos := by
  have hidle : Inv { c with system := c.system.setProducer t .idle } B pos :=
    h.leave (Or.inl rfl)
  have hslot : (backRes + buffers.length) % c.system.pool.bufferPoolSizeGapped =
      (B + buffers.length) % c.system.pool.bufferPoolSizeGapped := by
    rw [← hback, h.back_eq, Nat.mod_add_mod]
  rw [hslot]
  refine hidle.setBack (Nat.le_add_right _ _) ?_
  have h1 := numReserved_setProducer c.system t .idle
  have h2 := h.back_le_backRes
  rw [ht] at h1
  simp only [ProducerPc.numReserved] at h1
  change B + buffers.length + (c.system.setProducer t .idle).numReserved ≤ c.backRes
  omega

/-- A thread writes the next of its slots. -/
theorem Inv.write (h : c.Inv B pos) {buffers : List IbMemReg} {backRes i : Nat}
    (ht : c.system.producers t = .writeSlot buffers backRes i) (b : IbMemReg) :
    Inv { c with
      system := PoolSystem.setProducer { c.system with
        pool := c.system.pool.setSlot ((backRes + i) % c.system.pool.bufferPoolSizeGapped)
          (some b) } t
        (if i + 1 < buffers.length then .checkSlot buffers backRes (i + 1)
          else .casBack buffers backRes backRes) } B pos := by
  have hwf := h.producer t
  rw [ht] at hwf
  replace hwf : i < buffers.length := hwf
  have hres : (c.system.producers t).reservation = some ⟨backRes, buffers.length, i⟩ := by
    rw [ht]; rfl
  obtain ⟨hslot, hend, hunwritten⟩ := h.reserved t _ hres
  obtain ⟨hlow, -⟩ := hunwritten (pos t + i) (Nat.le_refl _) (by simpa using hwf)
  simp only at hslot hend
  let pc : ProducerPc := if i + 1 < buffers.length then .checkSlot buffers backRes (i + 1)
    else .casBack buffers backRes backRes
  -- the slot counts as written before it is
  have hnext : pc.reservation = some ⟨backRes, buffers.length, i + 1⟩ := by
    simp only [pc]
    split
    · rfl
    · have hlen : buffers.length = i + 1 := by omega
      simp only [ProducerPc.reservation, hlen]
  have hmoved : Inv { c with system := c.system.setProducer t pc } B pos := by
    refine h.setProducer c.loaded ?_ ?_ ?_ (fun _ _ => rfl) ?_ ?_
    · simp only [pc]
      split
      · next hnext => exact hnext
      · exact Nat.zero_lt_of_lt hwf
    · simp only [pc]
      split <;> exact Nat.zero_le _
    · rw [ht]
      simp only [pc]
      split <;> exact Nat.le_refl _
    · intro n hn
      simp only [pc] at hn
      split at hn <;> cases hn
    · intro r hr
      rw [hnext] at hr
      obtain rfl := Option.some.inj hr
      exact ⟨_, hres, rfl, rfl, Nat.le_succ i⟩
  have hposition : (backRes + i) % c.system.pool.bufferPoolSizeGapped =
      (pos t + i) % c.system.pool.bufferPoolSizeGapped := by
    rw [hslot, Nat.mod_add_mod]
  rw [hposition]
  refine hmoved.setSlot hlow ?_ (fun u r hr hle => ?_) b
  · change pos t + i < c.backRes
    omega
  · rw [setProducer_producers] at hr
    split at hr
    · next hut =>
      subst hut
      rw [hnext] at hr
      obtain rfl := Option.some.inj hr
      exact absurd hle (by simp)
    · next hut =>
      have hlen := written_le h.producer hr
      rcases h.disjoint u t r _ hut hr hres with hd | hd
      · omega
      · simp only at hd
        omega

/-- A call that holds no reservation goes on to its overflow check. -/
theorem Inv.load (h : c.Inv B pos) {buffers : List IbMemReg}
    (hlen : 0 < buffers.length) (ht : (c.system.producers t).pending = buffers.length) :
    Inv { c with
      system := c.system.setProducer t (.loadFront buffers c.system.pool.dataBuffersBackRes)
      loaded := Function.update c.loaded t c.backRes } B pos := by
  refine h.setProducer _ hlen (Nat.le_of_eq ht.symm) (Nat.zero_le _)
    (fun u hut => Function.update_of_ne hut _ _) (fun n hn => ?_) (fun r hr => by cases hr)
  obtain rfl := Option.some.inj hn
  rw [Function.update_self]
  exact ⟨h.backRes_eq, Nat.le_refl _⟩

theorem Inv.producerStep (h : c.Inv B pos) {spurious : Bool} {s : PoolSystem Tid}
    (hs : c.system.producerStep .exact t spurious = some s) :
    ∃ B' pos', (c.moveOn s (.produce t spurious)).Inv B' pos' := by
  have hwf := h.producer t
  rw [moveOn]
  unfold PoolSystem.producerStep at hs
  cases ht : c.system.producers t with
  | idle | thrown =>
    rw [ht] at hs
    cases hs
  | loadBackRes buffers =>
    rw [ht] at hs hwf
    obtain rfl := Option.some.inj hs
    exact ⟨B, pos, h.load hwf (by rw [ht]; rfl)⟩
  | loadFront buffers backRes =>
    rw [ht] at hs hwf
    have hloaded := h.loaded t backRes (by rw [ht]; rfl)
    simp only at hs
    split at hs <;> obtain rfl := Option.some.inj hs
    · exact ⟨B, pos, h.leave (Or.inr rfl)⟩
    · refine ⟨B, pos, h.setProducer c.loaded hwf (by rw [ht]; exact Nat.le_refl _)
        (Nat.zero_le _) (fun _ _ => rfl) (fun n hn => ?_) (fun r hr => by cases hr)⟩
      obtain rfl := Option.some.inj hn
      exact hloaded
  | casBackRes buffers backRes =>
    rw [ht] at hs hwf
    simp only at hs
    split at hs <;> obtain rfl := Option.some.inj hs
    · next hcas =>
      obtain ⟨hback, rfl⟩ := hcas
      have hmove : (ProducerPc.casBackRes buffers backRes).backResMove
          c.system.pool.dataBuffersBackRes false = buffers.length := if_pos hback
      rw [hmove]
      exact ⟨B, _, h.reserve ht hback fun u hut => Function.update_of_ne hut _ _⟩
    · next hcas =>
      have hmove : (ProducerPc.casBackRes buffers backRes).backResMove
          c.system.pool.dataBuffersBackRes spurious = 0 := by
        cases spurious with
        | false => exact if_neg fun hback => hcas ⟨hback, rfl⟩
        | true => rfl
      rw [hmove]
      exact ⟨B, pos, h.load hwf (by rw [ht]; rfl)⟩
  | checkSlot buffers backRes i =>
    rw [ht] at hs hwf
    simp only at hs
    split at hs <;> obtain rfl := Option.some.inj hs
    · exact ⟨B, pos, h.leave (Or.inr rfl)⟩
    · exact ⟨B, pos, h.keep hwf (by rw [ht]; rfl) (by rw [ht]; rfl) rfl rfl⟩
  | writeSlot buffers backRes i =>
    rw [ht] at hs
    simp only at hs
    split at hs
    · cases hs
    · next buffer _ =>
      obtain rfl := Option.some.inj hs
      exact ⟨B, pos, h.write ht buffer⟩
  | casBack buffers backRes reserved =>
    rw [ht] at hs hwf
    simp only at hs
    split at hs <;> obtain rfl := Option.some.inj hs
    · next hcas => exact ⟨_, pos, h.publish ht hcas.1⟩
    · exact ⟨B, pos, h.keep hwf (by rw [ht]; rfl) (by rw [ht]; rfl) rfl rfl⟩

/-- A thread enters its call. -/
theorem Inv.ret (h : c.Inv B pos) {buffers : List IbMemReg} (hne : buffers ≠ [])
    (hidle : c.system.producers t = .idle) (hsub : buffers.Subperm c.system.handedOut) :
    Inv { c with
      system := PoolSystem.setProducer { c.system with
        handedOut := c.system.handedOut.diff buffers } t (.loadBackRes buffers) } B pos := by
  have hcapacity := h.capacity
  rw [← outside_ret hidle hsub] at hcapacity
  have hle : (c.system.handedOut.diff buffers).length ≤ c.system.handedOut.length :=
    (List.diff_sublist c.system.handedOut buffers).length_le
  have hdiff : Inv { c with system := { c.system with
      handedOut := c.system.handedOut.diff buffers } } B pos :=
    { h with
      capacity := by
        have h1 := h.capacity
        simp only [outside] at h1 ⊢
        omega }
  exact hdiff.goTo c.loaded (List.length_pos_iff.mpr hne) hcapacity (Nat.zero_le _)
    (fun _ _ => rfl) (fun n hn => by cases hn) (fun r hr => by cases hr)

/-- **Every step keeps the invariant.** -/
theorem Inv.step (h : c.Inv B pos) {a : PoolAction Tid} {c' : CountedPool Tid}
    (hs : c.step .exact a = some c') : ∃ B' pos', c'.Inv B' pos' := by
  obtain ⟨s, hsystem, rfl⟩ := Option.map_eq_some_iff.mp hs
  cases a with
  | get call =>
    simp only [PoolSystem.step, Option.ite_none_right_eq_some, Option.some.injEq] at hsystem
    obtain ⟨-, rfl⟩ := hsystem
    exact ⟨B, pos, h.setConsumer_of_le (Or.inr trivial) (Nat.zero_le _) (Nat.zero_le _)⟩
  | consume => exact ⟨B, pos, h.consumerStep hsystem⟩
  | ret t buffers =>
    simp only [PoolSystem.step, Option.ite_none_right_eq_some, Option.some.injEq] at hsystem
    obtain ⟨⟨hidle, hne, hsub⟩, rfl⟩ := hsystem
    exact ⟨B, pos, h.ret hne hidle hsub⟩
  | produce t spurious => exact h.producerStep hsystem

end

theorem init_inv (bufferPoolSize : Nat) :
    (init bufferPoolSize : CountedPool Tid).Inv bufferPoolSize fun _ => 0 where
  front_eq := rfl
  back_eq := (Nat.mod_eq_of_lt (Nat.lt_succ_self _)).symm
  backRes_eq := (Nat.mod_eq_of_lt (Nat.lt_succ_self _)).symm
  front_le_back := Nat.zero_le _
  back_le_backRes := by
    simp [numReserved, init, PoolSystem.init, ProducerPc.numReserved]
  capacity := by
    simp [outside, init, PoolSystem.init, RecvBufferPool.init, ProducerPc.pending]
  consumer := Or.inr trivial
  producer _ := trivial
  loaded t n hn := by cases hn
  cleared k h1 h2 := absurd h2 (Nat.not_lt.mpr h1)
  free k h1 h2 := by
    replace h1 : bufferPoolSize ≤ k := h1
    replace h2 : k ≤ 0 + bufferPoolSize := h2
    have hk : k % (bufferPoolSize + 1) = bufferPoolSize := by
      rw [Nat.mod_eq_of_lt (by omega)]
      omega
    change (if k % (bufferPoolSize + 1) < bufferPoolSize then _ else none) = none
    rw [hk, if_neg (Nat.lt_irrefl _)]
  reserved t r hr := by cases hr
  disjoint t u rt ru _ ht := by cases ht

/-! ## The two checks -/

/-- **The slot a thread is to write is null**, in whatever order the threads
have published. -/
theorem Inv.checkSlot_isNull (h : c.Inv B pos) {t : Tid} {buffers : List IbMemReg}
    {backRes i : Nat} (ht : c.system.producers t = .checkSlot buffers backRes i) :
    c.system.pool.dataBuffers ((backRes + i) % c.system.pool.bufferPoolSizeGapped) = none := by
  have hwf := h.producer t
  rw [ht] at hwf
  obtain ⟨hslot, -, hunwritten⟩ := h.reserved t ⟨backRes, buffers.length, i⟩ (by rw [ht]; rfl)
  simp only at hslot
  rw [hslot, Nat.mod_add_mod]
  exact (hunwritten (pos t + i) (Nat.le_refl _) (Nat.add_lt_add_left hwf _)).2

theorem Inv.overflow_iff (h : c.Inv B pos) {t : Tid} {buffers : List IbMemReg} {backRes : Nat}
    (ht : c.system.producers t = .loadFront buffers backRes) :
    (backRes + buffers.length) % c.system.pool.bufferPoolSizeGapped =
        c.system.pool.dataBuffersFront ↔
      (ProducerPc.loadFront buffers backRes).Overtaken (c.loaded t) c.front
        c.system.pool.bufferPoolSizeGapped := by
  have hg : c.system.pool.bufferPoolSizeGapped = c.system.pool.bufferPoolSize + 1 := rfl
  obtain ⟨hslot, hle⟩ := h.loaded t backRes (by rw [ht]; rfl)
  -- the call's own buffers are outside the ring
  have hpending : buffers.length ≤ c.system.outside := by
    have hsum := Finset.single_le_sum (f := fun u => (c.system.producers u).pending)
      (fun _ _ => Nat.zero_le _) (Finset.mem_univ t)
    simp only [ht, ProducerPc.pending] at hsum
    exact Nat.le_add_left_of_le hsum
  have hcapacity := h.capacity
  rw [h.front_eq, hslot, Nat.mod_add_mod, ProducerPc.Overtaken]
  constructor
  · intro heq
    have hfront : c.loaded t + buffers.length ≤ c.front := by
      by_contra hlt
      have := Ring.eq_of_mod_eq (a := c.front) (by omega) (by omega) heq.symm
      omega
    exact ⟨hfront, Nat.sub_mod_eq_zero_of_mod_eq heq.symm⟩
  · rintro ⟨hfront, hlaps⟩
    exact (Nat.modEq_iff_dvd' hfront).mpr (Nat.dvd_of_mod_eq_zero hlaps)

end CountedPool

/-- One of the two checks is next, and what it tests for is so. -/
def ProducerPc.Fails (p : RecvBufferPool) : ProducerPc → Prop
  | .loadFront buffers backRes =>
    (backRes + buffers.length) % p.bufferPoolSizeGapped = p.dataBuffersFront
  | .checkSlot _ backRes i => (p.dataBuffers ((backRes + i) % p.bufferPoolSizeGapped)).isSome
  | _ => False

namespace PoolSystem

variable {Tid : Type} {s s' : PoolSystem Tid} {t : Tid}

theorem consumerStep_producers (hs : s.consumerStep .exact = some s') :
    s'.producers = s.producers := by
  unfold PoolSystem.consumerStep at hs
  cases hc : s.consumer with
  | idle | thrown =>
    rw [hc] at hs
    cases hs
  | loadFront | clearSlot | storeFront =>
    rw [hc] at hs
    obtain rfl := Option.some.inj hs
    rfl
  | loadBack call front =>
    rw [hc] at hs
    simp only at hs
    split at hs
    · obtain rfl := Option.some.inj hs
      rfl
    cases call with
    | getBuffer =>
      obtain rfl := Option.some.inj hs
      rfl
    | getBuffers count =>
      simp only at hs
      split at hs <;> split at hs <;> obtain rfl := Option.some.inj hs <;> rfl
  | readSlot front count i retBuffers =>
    rw [hc] at hs
    simp only at hs
    split at hs <;> obtain rfl := Option.some.inj hs <;> rfl

/-- A thread throws exactly when the check it makes fails. -/
theorem producerStep_producers [DecidableEq Tid] {spurious : Bool}
    (hs : s.producerStep .exact t spurious = some s') :
    ∃ pc, s'.producers = Function.update s.producers t pc ∧
      (pc = .thrown ↔ (s.producers t).Fails s.pool) := by
  unfold PoolSystem.producerStep at hs
  cases ht : s.producers t with
  | idle | thrown =>
    rw [ht] at hs
    cases hs
  | loadBackRes buffers =>
    rw [ht] at hs
    obtain rfl := Option.some.inj hs
    exact ⟨_, rfl, by simp [ProducerPc.Fails]⟩
  | loadFront buffers backRes =>
    rw [ht] at hs
    simp only at hs
    split at hs <;> obtain rfl := Option.some.inj hs
    · next hfull => exact ⟨_, rfl, by simpa [ProducerPc.Fails] using hfull⟩
    · next hfull => exact ⟨_, rfl, by simpa [ProducerPc.Fails] using hfull⟩
  | casBackRes buffers backRes =>
    rw [ht] at hs
    simp only at hs
    split at hs <;> obtain rfl := Option.some.inj hs <;> exact ⟨_, rfl, by simp [ProducerPc.Fails]⟩
  | checkSlot buffers backRes i =>
    rw [ht] at hs
    simp only at hs
    split at hs <;> obtain rfl := Option.some.inj hs
    · next hfilled => exact ⟨_, rfl, by simpa [ProducerPc.Fails] using hfilled⟩
    · next hfilled => exact ⟨_, rfl, by simpa [ProducerPc.Fails] using hfilled⟩
  | writeSlot buffers backRes i =>
    rw [ht] at hs
    simp only at hs
    split at hs
    · cases hs
    · obtain rfl := Option.some.inj hs
      refine ⟨_, rfl, ?_⟩
      split <;> simp [ProducerPc.Fails]
  | casBack buffers backRes reserved =>
    rw [ht] at hs
    simp only at hs
    split at hs <;> obtain rfl := Option.some.inj hs <;> exact ⟨_, rfl, by simp [ProducerPc.Fails]⟩

end PoolSystem

namespace CountedPool

open PoolSystem

variable {Tid : Type} [DecidableEq Tid] [Fintype Tid] {c c' : CountedPool Tid} {B : Nat}
  {pos : Tid → Nat}

omit [DecidableEq Tid] in
theorem Inv.fails_iff (h : c.Inv B pos) (t : Tid) :
    (c.system.producers t).Fails c.system.pool ↔
      (c.system.producers t).Overtaken (c.loaded t) c.front
        c.system.pool.bufferPoolSizeGapped := by
  cases ht : c.system.producers t with
  | loadFront buffers backRes => exact h.overflow_iff ht
  | checkSlot buffers backRes i =>
    refine iff_of_false (fun hfilled => ?_) id
    rw [ProducerPc.Fails, h.checkSlot_isNull ht] at hfilled
    cases hfilled
  | idle | loadBackRes | casBackRes | writeSlot | casBack | thrown => exact Iff.rfl

/-- A step makes no thread throw exactly if none is overtaken. -/
theorem Inv.step_thrown_iff (h : c.Inv B pos) (hnone : ∀ t, c.system.producers t ≠ .thrown)
    {a : PoolAction Tid} (hs : c.step .exact a = some c') :
    (∀ t, c'.system.producers t ≠ .thrown) ↔ c.NotOvertaken a := by
  obtain ⟨s, hsystem, rfl⟩ := Option.map_eq_some_iff.mp hs
  cases a with
  | get call =>
    simp only [PoolSystem.step, Option.ite_none_right_eq_some, Option.some.injEq] at hsystem
    obtain ⟨-, rfl⟩ := hsystem
    exact iff_of_true hnone trivial
  | consume =>
    refine iff_of_true (fun t => ?_) trivial
    change s.producers t ≠ .thrown
    rw [consumerStep_producers hsystem]
    exact hnone t
  | ret t buffers =>
    simp only [PoolSystem.step, Option.ite_none_right_eq_some, Option.some.injEq] at hsystem
    obtain ⟨-, rfl⟩ := hsystem
    refine iff_of_true (fun u => ?_) trivial
    change PoolSystem.producers (PoolSystem.setProducer _ t _) u ≠ .thrown
    rw [setProducer_producers]
    split
    · simp
    · exact hnone u
  | produce t spurious =>
    obtain ⟨pc, hproducers, hthrown⟩ := producerStep_producers hsystem
    change (∀ u, s.producers u ≠ .thrown) ↔ ¬ (c.system.producers t).Overtaken _ _ _
    rw [← h.fails_iff t, ← hthrown, hproducers]
    constructor
    · intro hall
      have := hall t
      rwa [Function.update_self] at this
    · intro hpc u
      rw [Function.update_apply]
      split
      · exact hpc
      · exact hnone u

omit [Fintype Tid] in
/-- Every run of the pool is counted by one of the counted pool. -/
theorem exists_counted {A : Arith} {bufferPoolSize : Nat} {as : List (PoolAction Tid)}
    {s : PoolSystem Tid}
    (hrun : Lts.exec (PoolSystem.step A) (.init bufferPoolSize) as = some s) :
    ∃ c, Lts.exec (step A) (init bufferPoolSize) as = some c ∧ c.system = s := by
  rw [← system_exec] at hrun
  exact Option.map_eq_some_iff.mp hrun

theorem exists_inv {bufferPoolSize : Nat} {as : List (PoolAction Tid)}
    (hrun : Lts.exec (step .exact) (init bufferPoolSize) as = some c) : ∃ B pos, c.Inv B pos := by
  refine Lts.exec_invariant (I := fun c : CountedPool Tid => ∃ B pos, c.Inv B pos) ?_
    ⟨_, _, init_inv bufferPoolSize⟩ hrun
  rintro c a c' ⟨B, pos, h⟩ hs
  exact h.step hs

end CountedPool

end Ibdxnet.Dx
