import Ibdxnet.Dx.RecvBufferPool
import Ibdxnet.Lib.Lts
import Ibdxnet.Lib.Sums
import Mathlib.Data.List.Perm.Subperm

/-!
# The receive buffer pool, one atomic access at a time

`GetBuffer`/`GetBuffers` of the one consumer thread and
`ReturnBuffer`/`ReturnBuffers` of any number of producer threads, as a
transition function whose actions are the single loads, stores,
compare-exchanges and slot accesses.  A call keeps its local variables in its
program counter.  `ReturnBuffer(b)` is `ReturnBuffers` with the one buffer `b`;
both loops have the same shape.

The wait loop at the end of a return is

    while (!m_dataBuffersBack.compare_exchange_weak(backRes, …)) yield();

and a failed attempt stores the value it found into `backRes`.  `casBack`
therefore carries `backRes` and, next to it, `reserved`: the position the
thread reserved, a copy the code does not have.

`publishedInTurn` is the condition under which the pool works: a thread that
moves the back pointer moves it from its own reservation.  Under it every slot
from front to back is filled (`Inv.slotsFilled`), in exact arithmetic;
`RecvBufferPoolWords` has the same for `uint32_t`.
-/

namespace Ibdxnet.Dx

open Sys

/-- The consumer's call. -/
inductive GetCall
  | getBuffer
  | getBuffers (count : Nat)
  deriving DecidableEq

/-- Where the consumer is, with the locals of its call: `retBuffers` are the
buffers it has taken out of their slots. -/
inductive ConsumerPc
  | idle
  | loadFront (call : GetCall)
  | loadBack (call : GetCall) (front : Nat)
  | readSlot (front count i : Nat) (retBuffers : List IbMemReg)
  | clearSlot (front count i : Nat) (retBuffers : List IbMemReg) (buffer : IbMemReg)
  | storeFront (front count : Nat) (retBuffers : List IbMemReg)
  | thrown
  deriving DecidableEq

/-- Where a producer is, with the locals of its call. -/
inductive ProducerPc
  | idle
  | loadBackRes (buffers : List IbMemReg)
  | loadFront (buffers : List IbMemReg) (backRes : Nat)
  | casBackRes (buffers : List IbMemReg) (backRes : Nat)
  | checkSlot (buffers : List IbMemReg) (backRes i : Nat)
  | writeSlot (buffers : List IbMemReg) (backRes i : Nat)
  | casBack (buffers : List IbMemReg) (backRes reserved : Nat)
  | thrown
  deriving DecidableEq

/-- The pool, its threads, and the buffers that are handed out and in no call. -/
structure PoolSystem (Tid : Type) where
  pool : RecvBufferPool
  consumer : ConsumerPc
  producers : Tid → ProducerPc
  handedOut : List IbMemReg

inductive PoolAction (Tid : Type)
  /-- The consumer enters a call. -/
  | get (call : GetCall)
  /-- The consumer's next access. -/
  | consume
  /-- Thread `t` enters `ReturnBuffers` with buffers that are handed out. -/
  | ret (t : Tid) (buffers : List IbMemReg)
  /-- Thread `t`'s next access; a weak compare-exchange may fail for no reason. -/
  | produce (t : Tid) (spurious : Bool)

namespace PoolSystem

variable {Tid : Type} [DecidableEq Tid]

/-! ## Algorithm -/

/-- The pool as constructed, all threads idle. -/
def init (bufferPoolSize : Nat) : PoolSystem Tid where
  pool := .init bufferPoolSize
  consumer := .idle
  producers _ := .idle
  handedOut := []

/-- One access of the consumer. -/
def consumerStep (A : Arith) (s : PoolSystem Tid) : Option (PoolSystem Tid) :=
  let size := s.pool.sizeGapped A
  match s.consumer with
  | .idle => none
  | .loadFront call => some { s with consumer := .loadBack call s.pool.dataBuffersFront }
  | .loadBack call front =>
    let back := s.pool.dataBuffersBack
    if front = back then
      some { s with consumer := .idle }
    else
      match call with
      | .getBuffer => some { s with consumer := .readSlot front 1 0 [] }
      | .getBuffers count =>
        let available := if front ≤ back then A.sub back front
          else A.add (A.sub s.pool.bufferPoolSize front) back
        let count := min available count
        if count = 0 then some { s with consumer := .storeFront front 0 [] }
        else some { s with consumer := .readSlot front count 0 [] }
  | .readSlot front count i retBuffers =>
    match s.pool.dataBuffers (A.add front i % size) with
    | none => some { s with consumer := .thrown }
    | some buffer => some { s with consumer := .clearSlot front count i retBuffers buffer }
  | .clearSlot front count i retBuffers buffer =>
    some { s with
      pool := s.pool.setSlot (A.add front i % size) none
      consumer := if i + 1 < count then .readSlot front count (i + 1) (retBuffers ++ [buffer])
        else .storeFront front count (retBuffers ++ [buffer]) }
  | .storeFront front count retBuffers =>
    some { s with
      pool := { s.pool with dataBuffersFront := A.add front count % size }
      consumer := .idle
      handedOut := s.handedOut ++ retBuffers }
  | .thrown => none

/-- Thread `t` moves on to `pc`. -/
def setProducer (s : PoolSystem Tid) (t : Tid) (pc : ProducerPc) : PoolSystem Tid :=
  { s with producers := Function.update s.producers t pc }

/-- One access of producer `t`. -/
def producerStep (A : Arith) (s : PoolSystem Tid) (t : Tid) (spurious : Bool) :
    Option (PoolSystem Tid) :=
  let size := s.pool.sizeGapped A
  match s.producers t with
  | .idle => none
  | .loadBackRes buffers => some (s.setProducer t (.loadFront buffers s.pool.dataBuffersBackRes))
  | .loadFront buffers backRes =>
    if A.add backRes buffers.length % size = s.pool.dataBuffersFront then
      some (s.setProducer t .thrown)
    else
      some (s.setProducer t (.casBackRes buffers backRes))
  | .casBackRes buffers backRes =>
    if s.pool.dataBuffersBackRes = backRes ∧ spurious = false then
      some ({ s with pool :=
        { s.pool with dataBuffersBackRes := A.add backRes buffers.length % size } }.setProducer t
          (.checkSlot buffers backRes 0))
    else
      some (s.setProducer t (.loadFront buffers s.pool.dataBuffersBackRes))
  | .checkSlot buffers backRes i =>
    if (s.pool.dataBuffers (A.add backRes i % size)).isSome then
      some (s.setProducer t .thrown)
    else
      some (s.setProducer t (.writeSlot buffers backRes i))
  | .writeSlot buffers backRes i =>
    match buffers[i]? with
    | none => none
    | some buffer =>
      some ({ s with pool := s.pool.setSlot (A.add backRes i % size) (some buffer) }.setProducer t
        (if i + 1 < buffers.length then .checkSlot buffers backRes (i + 1)
          else .casBack buffers backRes backRes))
  | .casBack buffers backRes reserved =>
    if s.pool.dataBuffersBack = backRes ∧ spurious = false then
      some ({ s with pool :=
        { s.pool with dataBuffersBack := A.add backRes buffers.length % size } }.setProducer t
          .idle)
    else
      some (s.setProducer t (.casBack buffers s.pool.dataBuffersBack reserved))
  | .thrown => none

/-- The transition function of the pool and its threads. -/
def step (A : Arith) (s : PoolSystem Tid) : PoolAction Tid → Option (PoolSystem Tid)
  | .get call =>
    if s.consumer = .idle ∧ call ≠ .getBuffers 0 then some { s with consumer := .loadFront call }
    else none
  | .consume => s.consumerStep A
  | .ret t buffers =>
    if s.producers t = .idle ∧ buffers ≠ [] ∧ buffers.Subperm s.handedOut then
      some ({ s with handedOut := s.handedOut.diff buffers }.setProducer t (.loadBackRes buffers))
    else none
  | .produce t spurious => s.producerStep A t spurious

end PoolSystem

/-! ## Invariant

The pointers are read off three counters `F ≤ B ≤ R` that never wrap: front,
back and reserved back are their values modulo the number of slots.  Every
producer that has reserved slots holds a run of positions between `B` and `R`;
the runs are disjoint, so the run that starts at `B` is the one to publish. -/

/-- The slots a producer has reserved: the first one, how many, and how many
of them it has written. -/
structure Reservation where
  slot : Nat
  length : Nat
  written : Nat

/-- The reservation of a producer that has passed its first compare-exchange. -/
def ProducerPc.reservation : ProducerPc → Option Reservation
  | .checkSlot buffers backRes i | .writeSlot buffers backRes i => some ⟨backRes, buffers.length, i⟩
  | .casBack buffers _ reserved => some ⟨reserved, buffers.length, buffers.length⟩
  | _ => none

/-- The buffers of a call that has not reserved slots yet. -/
def ProducerPc.pending : ProducerPc → Nat
  | .loadBackRes buffers | .loadFront buffers _ | .casBackRes buffers _ => buffers.length
  | _ => 0

/-- A call has buffers to return, and the slot it works on is one of its own. -/
def ProducerPc.WellFormed : ProducerPc → Prop
  | .idle | .thrown => True
  | .loadBackRes buffers | .loadFront buffers _ | .casBackRes buffers _ | .casBack buffers _ _ =>
    0 < buffers.length
  | .checkSlot buffers _ i | .writeSlot buffers _ i => i < buffers.length

/-- The slots the consumer has cleared and not yet released with the front pointer. -/
def ConsumerPc.taken : ConsumerPc → Nat
  | .readSlot _ _ i _ | .clearSlot _ _ i _ _ => i
  | .storeFront _ count _ => count
  | _ => 0

/-- How many positions from the front on the consumer has found filled. -/
def ConsumerPc.passed : ConsumerPc → Nat
  | .clearSlot _ _ i _ _ => i + 1
  | pc => pc.taken

theorem ConsumerPc.taken_le_passed (pc : ConsumerPc) : pc.taken ≤ pc.passed := by
  cases pc with
  | clearSlot front count i retBuffers buffer => exact Nat.le_succ i
  | idle | loadFront | loadBack | readSlot | storeFront | thrown => exact Nat.le_refl _

/-- The consumer's locals describe the slots from `F` on, and it has not thrown. -/
def ConsumerPc.WellFormed (F B size : Nat) : ConsumerPc → Prop
  | .idle | .loadFront _ => True
  | .loadBack _ front => front = F % size
  | .readSlot front count i retBuffers | .clearSlot front count i retBuffers _ =>
    front = F % size ∧ i < count ∧ F + count ≤ B ∧ retBuffers.length = i
  | .storeFront front count retBuffers =>
    front = F % size ∧ F + count ≤ B ∧ retBuffers.length = count
  | .thrown => False

theorem ConsumerPc.WellFormed.mono {F B B' size : Nat} {pc : ConsumerPc}
    (h : pc.WellFormed F B size) (hB : B ≤ B') : pc.WellFormed F B' size := by
  cases pc with
  | readSlot front count i retBuffers | clearSlot front count i retBuffers buffer =>
    exact ⟨h.1, h.2.1, Nat.le_trans h.2.2.1 hB, h.2.2.2⟩
  | storeFront front count retBuffers => exact ⟨h.1, Nat.le_trans h.2.1 hB, h.2.2⟩
  | idle | loadFront | loadBack | thrown => exact h

/-- The count of available buffers, the pointers read off positions. -/
theorem RecvBufferPool.available_le {p : RecvBufferPool} {F B : Nat}
    (hfront : p.dataBuffersFront = F % p.bufferPoolSizeGapped)
    (hback : p.dataBuffersBack = B % p.bufferPoolSizeGapped) (hle : F ≤ B)
    (hcap : B ≤ F + p.bufferPoolSize) : p.available .exact ≤ B - F := by
  have hg : p.bufferPoolSizeGapped = p.bufferPoolSize + 1 := rfl
  have hlt := Nat.mod_lt F (show 0 < p.bufferPoolSizeGapped by omega)
  obtain ⟨d, rfl⟩ := Nat.exists_eq_add_of_le hle
  rw [available, hfront, hback]
  simp only [Arith.exact_add, Arith.exact_sub]
  rcases Ring.add_mod_cases F (show d < p.bufferPoolSizeGapped by omega) with
    ⟨hd, _⟩ | ⟨hd, _⟩
  · rw [if_pos (by omega)]
    omega
  · rw [if_neg (by omega)]
    omega

/-- The next slot, or the store of the front pointer behind the last one. -/
theorem ConsumerPc.WellFormed.clearSlot {F B size front count i : Nat} {retBuffers : List IbMemReg}
    {buffer : IbMemReg} {pc : ConsumerPc}
    (h : (ConsumerPc.clearSlot front count i retBuffers buffer).WellFormed F B size)
    (hpc : pc = if i + 1 < count then .readSlot front count (i + 1) (retBuffers ++ [buffer])
      else .storeFront front count (retBuffers ++ [buffer])) :
    pc.WellFormed F B size ∧ pc.taken = i + 1 := by
  obtain ⟨hfront, hi, hcount, hlen⟩ := h
  have hlen' : (retBuffers ++ [buffer]).length = i + 1 := by simp [hlen]
  subst hpc
  split
  · next hnext => exact ⟨⟨hfront, hnext, hcount, hlen'⟩, rfl⟩
  · next hlast =>
    have hlast : count = i + 1 := by omega
    exact ⟨⟨hfront, hcount, hlen'.trans hlast.symm⟩, hlast⟩

/-- A publishing compare-exchange that succeeds starts from the thread's own reservation. -/
def ProducerPc.PublishesOwn : ProducerPc → Nat → Prop
  | .casBack _ backRes reserved, back => back = backRes → backRes = reserved
  | _, _ => True

instance ProducerPc.PublishesOwn.instDecidable :
    ∀ (pc : ProducerPc) (back : Nat), Decidable (pc.PublishesOwn back)
  | .casBack _ backRes reserved, back =>
    inferInstanceAs (Decidable (back = backRes → backRes = reserved))
  | .idle, _ | .loadBackRes _, _ | .loadFront _ _, _ | .casBackRes _ _, _ | .checkSlot _ _ _, _
  | .writeSlot _ _ _, _ | .thrown, _ => isTrue trivial

namespace PoolSystem

variable {Tid : Type} [DecidableEq Tid]

@[simp] theorem setProducer_pool (s : PoolSystem Tid) (t : Tid) (pc : ProducerPc) :
    (s.setProducer t pc).pool = s.pool := rfl

@[simp] theorem setProducer_consumer (s : PoolSystem Tid) (t : Tid) (pc : ProducerPc) :
    (s.setProducer t pc).consumer = s.consumer := rfl

theorem setProducer_producers (s : PoolSystem Tid) (t : Tid) (pc : ProducerPc) (u : Tid) :
    (s.setProducer t pc).producers u = if u = t then pc else s.producers u := by
  simp only [setProducer, Function.update_apply]

omit [DecidableEq Tid] in
/-- What the consumer makes of the two pointers. -/
theorem consumerStep_loadBack {s s' : PoolSystem Tid} {F B : Nat} {call : GetCall} {front : Nat}
    (hc : s.consumer = .loadBack call front)
    (hfront : s.pool.dataBuffersFront = F % s.pool.bufferPoolSizeGapped)
    (hback : s.pool.dataBuffersBack = B % s.pool.bufferPoolSizeGapped) (hle : F ≤ B)
    (hcap : B ≤ F + s.pool.bufferPoolSize)
    (hwf : s.consumer.WellFormed F B s.pool.bufferPoolSizeGapped)
    (hs : s.consumerStep .exact = some s') :
    ∃ pc, s' = { s with consumer := pc } ∧ pc.passed = 0 ∧
      pc.WellFormed F B s.pool.bufferPoolSizeGapped := by
  rw [hc] at hwf
  replace hwf : front = F % s.pool.bufferPoolSizeGapped := hwf
  unfold PoolSystem.consumerStep at hs
  rw [hc] at hs
  simp only at hs
  split at hs
  · exact ⟨_, (Option.some.inj hs).symm, rfl, trivial⟩
  next hne =>
  have hlt : F < B := by
    rcases Nat.eq_or_lt_of_le hle with heq | hlt
    · rw [hback, ← heq] at hne
      exact absurd hwf hne
    · exact hlt
  cases call with
  | getBuffer => exact ⟨_, (Option.some.inj hs).symm, rfl, hwf, Nat.zero_lt_one, hlt, rfl⟩
  | getBuffers count =>
    have havail := RecvBufferPool.available_le hfront hback hle hcap
    rw [RecvBufferPool.available, hfront, ← hwf] at havail
    simp only at hs
    generalize hm : min (if front ≤ s.pool.dataBuffersBack then
      Arith.exact.sub s.pool.dataBuffersBack front
      else Arith.exact.add (Arith.exact.sub s.pool.bufferPoolSize front)
        s.pool.dataBuffersBack) count = m at hs
    have hmB : F + m ≤ B := by omega
    split at hs
    · exact ⟨_, (Option.some.inj hs).symm, rfl, hwf, hle, rfl⟩
    · next hm0 =>
      exact ⟨_, (Option.some.inj hs).symm, rfl, hwf, Nat.pos_of_ne_zero hm0, hmB, rfl⟩

section
omit [DecidableEq Tid]

/-- Position `k` holds a buffer. -/
def Filled (s : PoolSystem Tid) (k : Nat) : Prop :=
  (s.pool.dataBuffers (k % s.pool.bufferPoolSizeGapped)).isSome

/-- Filling a slot keeps every filled position filled. -/
theorem Filled.setSlot {s : PoolSystem Tid} {k : Nat} (h : s.Filled k) (slot : Nat) (b : IbMemReg) :
    PoolSystem.Filled { s with pool := s.pool.setSlot slot (some b) } k := by
  simp only [Filled, RecvBufferPool.setSlot_bufferPoolSizeGapped,
    RecvBufferPool.setSlot_dataBuffers, Function.update_apply] at h ⊢
  split
  · rfl
  · exact h

end

omit [DecidableEq Tid] in
/-- No position is reserved by two threads. -/
def DisjointSpans (s : PoolSystem Tid) (pos : Tid → Nat) : Prop :=
  ∀ t u rt ru, t ≠ u → (s.producers t).reservation = some rt →
    (s.producers u).reservation = some ru → pos t + rt.length ≤ pos u ∨ pos u + ru.length ≤ pos t

/-- A thread that moves on keeps the span it had before. -/
theorem DisjointSpans.setProducer {s : PoolSystem Tid} {pos : Tid → Nat} {t : Tid}
    {pc : ProducerPc} (h : s.DisjointSpans pos)
    (hres : ∀ r, pc.reservation = some r →
      ∃ r₀, (s.producers t).reservation = some r₀ ∧ r₀.length = r.length) :
    (s.setProducer t pc).DisjointSpans pos := by
  intro u v ru rv huv hu hv
  rw [setProducer_producers] at hu hv
  have span : ∀ w rw, (if w = t then pc else s.producers w).reservation = some rw →
      ∃ r₀, (s.producers w).reservation = some r₀ ∧ r₀.length = rw.length := by
    intro w rw hw
    split at hw
    · next hwt =>
      subst hwt
      exact hres rw hw
    · exact ⟨rw, hw, rfl⟩
  obtain ⟨ru₀, hu₀, hul⟩ := span u ru hu
  obtain ⟨rv₀, hv₀, hvl⟩ := span v rv hv
  rw [← hul, ← hvl]
  exact h u v ru₀ rv₀ huv hu₀ hv₀

/-- A new span starts where all others have ended. -/
theorem DisjointSpans.reserve {s : PoolSystem Tid} {pos : Tid → Nat} {R : Nat} {t : Tid}
    {pc : ProducerPc} (h : s.DisjointSpans pos)
    (hend : ∀ u r, (s.producers u).reservation = some r → pos u + r.length ≤ R) :
    (s.setProducer t pc).DisjointSpans (Function.update pos t R) := by
  intro u v ru rv huv hu hv
  rw [setProducer_producers] at hu hv
  split at hu
  · next hut =>
    subst hut
    rw [if_neg (Ne.symm huv)] at hv
    rw [Function.update_self, Function.update_of_ne (Ne.symm huv)]
    exact Or.inr (hend v rv hv)
  · next hut =>
    rw [Function.update_of_ne hut]
    split at hv
    · next hvt =>
      subst hvt
      rw [Function.update_self]
      exact Or.inl (hend u ru hu)
    · next hvt =>
      rw [Function.update_of_ne hvt]
      exact h u v ru rv huv hu hv

variable [Fintype Tid]

/-- The buffers outside the ring: handed out, or in a call that has reserved nothing yet. -/
def outside (s : PoolSystem Tid) : Nat :=
  s.handedOut.length + ∑ t, (s.producers t).pending

structure Inv (s : PoolSystem Tid) (F B R : Nat) (pos : Tid → Nat) : Prop where
  front_eq : s.pool.dataBuffersFront = F % s.pool.bufferPoolSizeGapped
  back_eq : s.pool.dataBuffersBack = B % s.pool.bufferPoolSizeGapped
  backRes_eq : s.pool.dataBuffersBackRes = R % s.pool.bufferPoolSizeGapped
  front_le_back : F + s.consumer.taken ≤ B
  back_le_backRes : B ≤ R
  capacity : R + s.outside ≤ F + s.pool.bufferPoolSize
  filled : ∀ k, F + s.consumer.taken ≤ k → k < B → s.Filled k
  consumer : s.consumer.WellFormed F B s.pool.bufferPoolSizeGapped
  producer : ∀ t, (s.producers t).WellFormed
  reserved : ∀ t r, (s.producers t).reservation = some r →
    r.slot = pos t % s.pool.bufferPoolSizeGapped ∧ B ≤ pos t ∧ pos t + r.length ≤ R ∧
      ∀ k, pos t ≤ k → k < pos t + r.written → s.Filled k
  disjoint : ∀ t u rt ru, t ≠ u → (s.producers t).reservation = some rt →
    (s.producers u).reservation = some ru →
    pos t + rt.length ≤ pos u ∨ pos u + ru.length ≤ pos t

/-! ## Lemmas -/

theorem outside_setProducer (s : PoolSystem Tid) (t : Tid) (pc : ProducerPc) :
    (s.setProducer t pc).outside + (s.producers t).pending = s.outside + pc.pending := by
  have := Sums.sum_update ProducerPc.pending s.producers t pc
  simp only [outside, setProducer]
  omega

/-- Buffers that are returned stay outside until their slots are reserved. -/
theorem outside_ret {s : PoolSystem Tid} {t : Tid} {buffers : List IbMemReg}
    (hidle : s.producers t = .idle) (hsub : buffers.Subperm s.handedOut) :
    (({ s with handedOut := s.handedOut.diff buffers } : PoolSystem Tid).setProducer t
      (.loadBackRes buffers)).outside = s.outside := by
  have hdiff : buffers.length + (s.handedOut.diff buffers).length = s.handedOut.length := by
    rw [← List.length_append]
    exact (List.subperm_append_diff_self_of_count_le
      (List.subperm_ext_iff.mp hsub)).length_eq
  have hout := outside_setProducer { s with handedOut := s.handedOut.diff buffers } t
    (.loadBackRes buffers)
  rw [hidle] at hout
  simp only [ProducerPc.pending] at hout
  simp only [outside] at hout ⊢
  omega

/-- A producer that moves on without a new reservation, its slots written as it says. -/
theorem Inv.setProducer {s : PoolSystem Tid} {F B R : Nat} {pos : Tid → Nat} {t : Tid}
    {pc : ProducerPc} (h : s.Inv F B R pos) (hwf : pc.WellFormed)
    (hpending : pc.pending ≤ (s.producers t).pending)
    (hres : ∀ r, pc.reservation = some r → ∃ r₀, (s.producers t).reservation = some r₀ ∧
      r₀.slot = r.slot ∧ r₀.length = r.length ∧
      ∀ k, pos t ≤ k → k < pos t + r.written → s.Filled k) :
    (s.setProducer t pc).Inv F B R pos where
  front_eq := h.front_eq
  back_eq := h.back_eq
  backRes_eq := h.backRes_eq
  front_le_back := h.front_le_back
  back_le_backRes := h.back_le_backRes
  capacity := by
    have h1 := outside_setProducer s t pc
    have h2 := h.capacity
    simp only [setProducer_pool]
    omega
  filled := h.filled
  consumer := h.consumer
  producer u := by
    rw [setProducer_producers]
    split
    · exact hwf
    · exact h.producer u
  reserved u r hr := by
    rw [setProducer_producers] at hr
    split at hr
    · next hu =>
      subst hu
      obtain ⟨r₀, h₀, hslot, hlen, hfill⟩ := hres r hr
      obtain ⟨h1, h2, h3, -⟩ := h.reserved u r₀ h₀
      exact ⟨by rw [← hslot]; exact h1, h2, by rw [← hlen]; exact h3, hfill⟩
    · exact h.reserved u r hr
  disjoint := DisjointSpans.setProducer h.disjoint fun r hr => by
    obtain ⟨r₀, h₀, -, hlen, -⟩ := hres r hr
    exact ⟨r₀, h₀, hlen⟩

omit [DecidableEq Tid] in
theorem Inv.setSlot {s : PoolSystem Tid} {F B R : Nat} {pos : Tid → Nat} (h : s.Inv F B R pos)
    (slot : Nat) (b : IbMemReg) :
    PoolSystem.Inv { s with pool := s.pool.setSlot slot (some b) } F B R pos where
  front_eq := h.front_eq
  back_eq := h.back_eq
  backRes_eq := h.backRes_eq
  front_le_back := h.front_le_back
  back_le_backRes := h.back_le_backRes
  capacity := h.capacity
  filled k h1 h2 := (h.filled k h1 h2).setSlot slot b
  consumer := h.consumer
  producer := h.producer
  reserved t r hr := by
    obtain ⟨h1, h2, h3, h4⟩ := h.reserved t r hr
    exact ⟨h1, h2, h3, fun k hk hk' => (h4 k hk hk').setSlot slot b⟩
  disjoint := h.disjoint

omit [DecidableEq Tid] in
/-- A consumer that moves on without a slot access. -/
theorem Inv.setConsumer {s : PoolSystem Tid} {F B R : Nat} {pos : Tid → Nat} {pc : ConsumerPc}
    (h : s.Inv F B R pos) (htaken : pc.taken = s.consumer.taken)
    (hwf : pc.WellFormed F B s.pool.bufferPoolSizeGapped) :
    PoolSystem.Inv { s with consumer := pc } F B R pos where
  front_eq := h.front_eq
  back_eq := h.back_eq
  backRes_eq := h.backRes_eq
  front_le_back := by simpa only [htaken] using h.front_le_back
  back_le_backRes := h.back_le_backRes
  capacity := h.capacity
  filled k h1 h2 := h.filled k (by simpa only [htaken] using h1) h2
  consumer := hwf
  producer := h.producer
  reserved := h.reserved
  disjoint := h.disjoint

omit [DecidableEq Tid] in
/-- Front and back are less than the number of slots apart. -/
theorem Inv.back_le {s : PoolSystem Tid} {F B R : Nat} {pos : Tid → Nat} (h : s.Inv F B R pos) :
    F ≤ B ∧ B ≤ F + s.pool.bufferPoolSize := by
  have h1 := h.front_le_back
  have h2 := h.back_le_backRes
  have h3 := h.capacity
  omega

omit [DecidableEq Tid] [Fintype Tid] in
theorem written_le {s : PoolSystem Tid} (h : ∀ t, (s.producers t).WellFormed) {t : Tid}
    {r : Reservation} (hr : (s.producers t).reservation = some r) : r.written ≤ r.length := by
  have hwf := h t
  cases hpc : s.producers t <;> rw [hpc] at hr hwf <;> simp only [ProducerPc.reservation,
    Option.some.injEq, reduceCtorEq] at hr <;> subst hr
  case casBack => exact Nat.le_refl _
  all_goals exact Nat.le_of_lt hwf

/-! ### One access keeps the invariant -/

omit [DecidableEq Tid] in
theorem Inv.consumerStep {s s' : PoolSystem Tid} {F B R : Nat} {pos : Tid → Nat}
    (h : s.Inv F B R pos) (hs : s.consumerStep .exact = some s') : ∃ F', s'.Inv F' B R pos := by
  have hcap := h.back_le
  have hfb := h.front_le_back
  have hwf := h.consumer
  have hg : s.pool.bufferPoolSizeGapped = s.pool.bufferPoolSize + 1 := rfl
  cases hc : s.consumer with
  | idle | thrown =>
    simp only [PoolSystem.consumerStep, hc] at hs
    cases hs
  | loadFront call =>
    simp only [PoolSystem.consumerStep, hc] at hs
    obtain rfl := Option.some.inj hs
    exact ⟨F, h.setConsumer (by rw [hc]; rfl) h.front_eq⟩
  | loadBack call front =>
    have htaken : s.consumer.taken = 0 := by rw [hc]; rfl
    obtain ⟨pc, rfl, hpassed, hpcwf⟩ :=
      consumerStep_loadBack hc h.front_eq h.back_eq hcap.1 hcap.2 hwf hs
    have hpc := pc.taken_le_passed
    exact ⟨F, h.setConsumer (by omega) hpcwf⟩
  | readSlot front count i retBuffers =>
    simp only [PoolSystem.consumerStep, hc, Arith.exact_add,
      RecvBufferPool.sizeGapped_exact] at hs
    rw [hc] at hwf
    obtain ⟨hfront, hi, hcount, hlen⟩ := hwf
    have htaken : s.consumer.taken = i := by rw [hc]; rfl
    -- the slot lies between what is taken and the back pointer
    have hfilled := h.filled (F + i) (by omega) (by omega)
    rw [Filled, ← Nat.mod_add_mod, ← hfront] at hfilled
    split at hs
    · next hnone => rw [hnone] at hfilled; cases hfilled
    · obtain rfl := Option.some.inj hs
      exact ⟨F, h.setConsumer htaken.symm ⟨hfront, hi, hcount, hlen⟩⟩
  | clearSlot front count i retBuffers buffer =>
    simp only [PoolSystem.consumerStep, hc, Arith.exact_add,
      RecvBufferPool.sizeGapped_exact] at hs
    rw [hc] at hwf hfb
    have hclear := hwf
    obtain ⟨hfront, hi, hcount, -⟩ := hwf
    have htaken : s.consumer.taken = i := by rw [hc]; rfl
    obtain rfl := Option.some.inj hs
    have hcapacity := h.capacity
    -- clearing slot `F + i` leaves the positions after it
    have hkeep : ∀ k, F + i < k → k ≤ F + s.pool.bufferPoolSize → s.Filled k →
        (Function.update s.pool.dataBuffers ((front + i) % s.pool.bufferPoolSizeGapped) none
          (k % s.pool.bufferPoolSizeGapped)).isSome := by
      intro k h1 h2 hk
      rw [Function.update_of_ne]
      · exact hk
      · intro heq
        rw [hfront, Nat.mod_add_mod] at heq
        have := (Ring.mod_eq_iff_of_lt (f := F) (by omega) (by omega) (by omega) (by omega)).mp heq
        omega
    obtain ⟨hwf', htaken'⟩ := ConsumerPc.WellFormed.clearSlot hclear rfl
    refine ⟨F, ⟨h.front_eq, h.back_eq, h.backRes_eq, ?_, h.back_le_backRes, h.capacity, ?_, ?_,
      h.producer, ?_, h.disjoint⟩⟩
    · rw [htaken']; omega
    · intro k h1 h2
      rw [htaken'] at h1
      exact hkeep k (by omega) (by omega) (h.filled k (by omega) h2)
    · exact hwf'
    · intro t r hr
      obtain ⟨h1, h2, h3, h4⟩ := h.reserved t r hr
      refine ⟨h1, h2, h3, fun k hk hk' => ?_⟩
      have hwritten : r.written ≤ r.length := written_le h.producer hr
      exact hkeep k (by omega) (by omega) (h4 k hk hk')
  | storeFront front count retBuffers =>
    simp only [PoolSystem.consumerStep, hc, Arith.exact_add,
      RecvBufferPool.sizeGapped_exact] at hs
    rw [hc] at hwf hfb
    obtain ⟨hfront, hcount, hlen⟩ := hwf
    have htaken : s.consumer.taken = count := by rw [hc]; rfl
    obtain rfl := Option.some.inj hs
    refine ⟨F + count, ⟨?_, h.back_eq, h.backRes_eq, ?_, h.back_le_backRes, ?_, ?_, trivial,
      h.producer, h.reserved, h.disjoint⟩⟩
    · change (front + count) % s.pool.bufferPoolSizeGapped = _
      rw [hfront, Nat.mod_add_mod]
      rfl
    · simpa [ConsumerPc.taken] using hcount
    · have := h.capacity
      simp only [outside, List.length_append] at this ⊢
      omega
    · intro k h1 h2
      exact h.filled k (by simp only [ConsumerPc.taken] at h1; omega) h2

/-- A producer whose first compare-exchange succeeds holds the positions from `R` on. -/
theorem Inv.reserve {s : PoolSystem Tid} {F B R : Nat} {pos : Tid → Nat} (h : s.Inv F B R pos)
    {t : Tid} {buffers : List IbMemReg} {backRes : Nat}
    (ht : s.producers t = .casBackRes buffers backRes)
    (hback : s.pool.dataBuffersBackRes = backRes) :
    (({ s with pool := { s.pool with dataBuffersBackRes :=
      (backRes + buffers.length) % s.pool.bufferPoolSizeGapped } } : PoolSystem Tid).setProducer t
        (.checkSlot buffers backRes 0)).Inv F B (R + buffers.length)
          (Function.update pos t R) where
  front_eq := h.front_eq
  back_eq := h.back_eq
  backRes_eq := by
    change (backRes + buffers.length) % s.pool.bufferPoolSizeGapped = _
    rw [← hback, h.backRes_eq, Nat.mod_add_mod]
    rfl
  front_le_back := h.front_le_back
  back_le_backRes := Nat.le_trans h.back_le_backRes (Nat.le_add_right _ _)
  capacity := by
    have h1 := outside_setProducer s t (.checkSlot buffers backRes 0)
    have h2 := h.capacity
    rw [ht] at h1
    simp only [ProducerPc.pending] at h1
    change R + buffers.length + (s.setProducer t (.checkSlot buffers backRes 0)).outside ≤
      F + s.pool.bufferPoolSize
    omega
  filled := h.filled
  consumer := h.consumer
  producer u := by
    rw [setProducer_producers]
    split
    · have := h.producer t
      rwa [ht] at this
    · exact h.producer u
  reserved u r hr := by
    rw [setProducer_producers] at hr
    split at hr
    · next hu =>
      subst hu
      obtain rfl := Option.some.inj hr
      rw [Function.update_self]
      refine ⟨?_, h.back_le_backRes, Nat.le_refl _, fun k h1 h2 => absurd h1 (by simpa using h2)⟩
      exact hback.symm.trans h.backRes_eq
    · next hu =>
      obtain ⟨h1, h2, h3, h4⟩ := h.reserved u r hr
      rw [Function.update_of_ne hu]
      exact ⟨h1, h2, by omega, h4⟩
  disjoint := DisjointSpans.reserve h.disjoint fun u r hr => (h.reserved u r hr).2.2.1

omit [DecidableEq Tid] [Fintype Tid] in
theorem length_pos {s : PoolSystem Tid} (h : ∀ t, (s.producers t).WellFormed) {t : Tid}
    {r : Reservation} (hr : (s.producers t).reservation = some r) : 0 < r.length := by
  have hwf := h t
  cases hpc : s.producers t <;> rw [hpc] at hr hwf <;> simp only [ProducerPc.reservation,
    Option.some.injEq, reduceCtorEq] at hr <;> subst hr
  case casBack => exact hwf
  all_goals exact Nat.zero_lt_of_lt hwf

/-- The producer whose span starts at the back pointer publishes its slots. -/
theorem Inv.publish {s : PoolSystem Tid} {F B R : Nat} {pos : Tid → Nat} (h : s.Inv F B R pos)
    {t : Tid} {buffers : List IbMemReg} {backRes reserved : Nat}
    (ht : s.producers t = .casBack buffers backRes reserved)
    (hback : s.pool.dataBuffersBack = backRes) (hturn : backRes = reserved) :
    (({ s with pool := { s.pool with dataBuffersBack :=
      (backRes + buffers.length) % s.pool.bufferPoolSizeGapped } } : PoolSystem Tid).setProducer t
        .idle).Inv F (B + buffers.length) R pos := by
  have hres : (s.producers t).reservation = some ⟨reserved, buffers.length, buffers.length⟩ := by
    rw [ht]; rfl
  obtain ⟨hslot, hB, hR, hfill⟩ := h.reserved t _ hres
  have hpos := length_pos h.producer hres
  simp only at hslot hR hfill hpos
  have hcap := h.capacity
  have hfb := h.front_le_back
  have hg : s.pool.bufferPoolSizeGapped = s.pool.bufferPoolSize + 1 := rfl
  -- equal slots less than a ring apart: the span starts at `B`
  have hstart : B = pos t := by
    apply Ring.eq_of_mod_eq (n := s.pool.bufferPoolSizeGapped) hB (by omega)
    rw [← h.back_eq, hback, hturn, hslot]
  refine ⟨h.front_eq, ?_, h.backRes_eq, ?_, by omega, ?_, ?_, h.consumer.mono (by omega), ?_, ?_,
    ?_⟩
  · change (backRes + buffers.length) % s.pool.bufferPoolSizeGapped = _
    rw [← hback, h.back_eq, Nat.mod_add_mod]
    rfl
  · exact Nat.le_trans hfb (Nat.le_add_right _ _)
  · have h1 := outside_setProducer s t .idle
    rw [ht] at h1
    simp only [ProducerPc.pending] at h1
    change R + (s.setProducer t .idle).outside ≤ F + s.pool.bufferPoolSize
    omega
  · intro k h1 h2
    rcases Nat.lt_or_ge k B with hlt | hge
    · exact h.filled k h1 hlt
    · exact hfill k (by omega) (by omega)
  · intro u
    rw [setProducer_producers]
    split
    · trivial
    · exact h.producer u
  · intro u r hr
    rw [setProducer_producers] at hr
    split at hr
    · cases hr
    next hu =>
    obtain ⟨h1, h2, h3, h4⟩ := h.reserved u r hr
    have hlen := length_pos h.producer hr
    refine ⟨h1, ?_, h3, h4⟩
    rcases h.disjoint u t r _ hu hr hres with hd | hd
    · omega
    · simp only at hd
      omega
  · exact DisjointSpans.setProducer h.disjoint fun r hr => by cases hr

/-- The condition on a step: a thread that moves the back pointer moves it
from its own reservation. -/
def PublishedInTurn (s : PoolSystem Tid) : PoolAction Tid → Prop
  | .produce t false => (s.producers t).PublishesOwn s.pool.dataBuffersBack
  | _ => True

instance PublishedInTurn.instDecidable (s : PoolSystem Tid) :
    ∀ a, Decidable (s.PublishedInTurn a)
  | .produce t false =>
    inferInstanceAs (Decidable ((s.producers t).PublishesOwn s.pool.dataBuffersBack))
  | .produce _ true | .get _ | .consume | .ret _ _ => isTrue trivial

theorem Inv.producerStep {s s' : PoolSystem Tid} {F B R : Nat} {pos : Tid → Nat} {t : Tid}
    {spurious : Bool} (h : s.Inv F B R pos) (hturn : s.PublishedInTurn (.produce t spurious))
    (hs : s.producerStep .exact t spurious = some s') : ∃ B' R' pos', s'.Inv F B' R' pos' := by
  have hwf := h.producer t
  have hres := fun r hr => h.reserved t r hr
  unfold PoolSystem.producerStep at hs
  simp only at hs
  split at hs
  case h_1 ht => cases hs
  case h_2 buffers ht =>
    rw [ht] at hwf
    obtain rfl := Option.some.inj hs
    exact ⟨B, R, pos, h.setProducer hwf (by rw [ht]; exact Nat.le_refl _)
      (by simp [ProducerPc.reservation])⟩
  case h_3 buffers backRes ht =>
    rw [ht] at hwf
    split at hs
    · obtain rfl := Option.some.inj hs
      exact ⟨B, R, pos, h.setProducer trivial (Nat.zero_le _) (by simp [ProducerPc.reservation])⟩
    · obtain rfl := Option.some.inj hs
      exact ⟨B, R, pos, h.setProducer hwf (by rw [ht]; exact Nat.le_refl _)
        (by simp [ProducerPc.reservation])⟩
  case h_4 buffers backRes ht =>
    split at hs
    · next hcas =>
      obtain rfl := Option.some.inj hs
      exact ⟨B, R + buffers.length, Function.update pos t R, h.reserve ht hcas.1⟩
    · rw [ht] at hwf
      obtain rfl := Option.some.inj hs
      exact ⟨B, R, pos, h.setProducer hwf (by rw [ht]; exact Nat.le_refl _)
        (by simp [ProducerPc.reservation])⟩
  case h_5 buffers backRes i ht =>
    rw [ht] at hwf
    split at hs
    · obtain rfl := Option.some.inj hs
      exact ⟨B, R, pos, h.setProducer trivial (Nat.zero_le _) (by simp [ProducerPc.reservation])⟩
    · obtain rfl := Option.some.inj hs
      rw [ht] at hres
      refine ⟨B, R, pos, h.setProducer hwf (Nat.zero_le _) fun r hr => ?_⟩
      exact ⟨r, by rw [ht]; exact hr, rfl, rfl, (hres r hr).2.2.2⟩
  case h_6 buffers backRes i ht =>
    rw [ht] at hwf
    split at hs
    · cases hs
    next buffer hbuffer =>
    obtain rfl := Option.some.inj hs
    have hres₀ : (s.producers t).reservation = some ⟨backRes, buffers.length, i⟩ := by rw [ht]; rfl
    obtain ⟨hslot, -, -, hwritten⟩ := hres _ hres₀
    -- position `pos t + i` is the slot just written
    let slot := (backRes + i) % s.pool.bufferPoolSizeGapped
    have hfill : ∀ k, pos t ≤ k → k < pos t + (i + 1) →
        PoolSystem.Filled { s with pool := s.pool.setSlot slot (some buffer) } k := by
      intro k h1 h2
      rcases Nat.lt_or_ge k (pos t + i) with hlt | hge
      · exact (hwritten k h1 hlt).setSlot _ _
      · have hk : k = pos t + i := by omega
        have hslot' : slot = k % s.pool.bufferPoolSizeGapped := by
          rw [hk, ← Nat.mod_add_mod, ← hslot]
        simp only [Filled, RecvBufferPool.setSlot_dataBuffers,
          RecvBufferPool.setSlot_bufferPoolSizeGapped, hslot', Function.update_self,
          Option.isSome_some]
    refine ⟨B, R, pos, (h.setSlot _ buffer).setProducer ?_ ?_ fun r hr => ?_⟩
    · split
      · next hnext => exact hnext
      · exact Nat.zero_lt_of_lt hwf
    · split <;> exact Nat.zero_le _
    · refine ⟨_, hres₀, ?_⟩
      split at hr
      · obtain rfl := Option.some.inj hr
        exact ⟨rfl, rfl, hfill⟩
      · next hlast =>
        obtain rfl := Option.some.inj hr
        have hlen : buffers.length = i + 1 := by
          have : i < buffers.length := hwf
          omega
        exact ⟨rfl, rfl, fun k h1 h2 => hfill k h1 (by simpa only [hlen] using h2)⟩
  case h_7 buffers backRes reserved ht =>
    rw [ht] at hwf
    split at hs
    · next hcas =>
      obtain rfl := Option.some.inj hs
      rw [hcas.2, PublishedInTurn, ht] at hturn
      exact ⟨_, R, pos, h.publish ht hcas.1 (hturn hcas.1)⟩
    · obtain rfl := Option.some.inj hs
      rw [ht] at hres
      refine ⟨B, R, pos, h.setProducer hwf (Nat.zero_le _) fun r hr => ?_⟩
      exact ⟨r, by rw [ht]; exact hr, rfl, rfl, (hres r hr).2.2.2⟩
  case h_8 ht => cases hs

theorem Inv.step {s s' : PoolSystem Tid} {F B R : Nat} {pos : Tid → Nat} {a : PoolAction Tid}
    (h : s.Inv F B R pos) (hturn : s.PublishedInTurn a) (hs : s.step .exact a = some s') :
    ∃ F' B' R' pos', s'.Inv F' B' R' pos' := by
  cases a with
  | get call =>
    simp only [PoolSystem.step, Option.ite_none_right_eq_some, Option.some.injEq] at hs
    obtain ⟨⟨hidle, -⟩, rfl⟩ := hs
    exact ⟨F, B, R, pos, h.setConsumer (by rw [hidle]; rfl) trivial⟩
  | consume =>
    obtain ⟨F', h'⟩ := h.consumerStep hs
    exact ⟨F', B, R, pos, h'⟩
  | ret t buffers =>
    simp only [PoolSystem.step, Option.ite_none_right_eq_some, Option.some.injEq] at hs
    obtain ⟨⟨hidle, hne, hsub⟩, rfl⟩ := hs
    refine ⟨F, B, R, pos, ⟨h.front_eq, h.back_eq, h.backRes_eq, h.front_le_back,
      h.back_le_backRes, ?_, h.filled, h.consumer, ?_, ?_, ?_⟩⟩
    · rw [outside_ret hidle hsub]
      exact h.capacity
    · intro u
      rw [setProducer_producers]
      split
      · exact List.length_pos_iff.mpr hne
      · exact h.producer u
    · intro u r hr
      rw [setProducer_producers] at hr
      split at hr
      · cases hr
      · exact h.reserved u r hr
    · exact DisjointSpans.setProducer h.disjoint fun r hr => by cases hr
  | produce t spurious =>
    obtain ⟨B', R', pos', h'⟩ := h.producerStep hturn hs
    exact ⟨F, B', R', pos', h'⟩

omit [DecidableEq Tid] in
theorem init_inv (bufferPoolSize : Nat) : (init bufferPoolSize : PoolSystem Tid).Inv 0
    bufferPoolSize bufferPoolSize (fun _ => 0) where
  front_eq := rfl
  back_eq := (Nat.mod_eq_of_lt (Nat.lt_succ_self _)).symm
  backRes_eq := (Nat.mod_eq_of_lt (Nat.lt_succ_self _)).symm
  front_le_back := Nat.zero_le _
  back_le_backRes := Nat.le_refl _
  capacity := by simp [outside, init, RecvBufferPool.init, ProducerPc.pending]
  filled k _ hk := by
    have hmod : k % (bufferPoolSize + 1) = k := Nat.mod_eq_of_lt (by omega)
    simp [Filled, init, RecvBufferPool.init, RecvBufferPool.bufferPoolSizeGapped, hmod, hk]
  consumer := trivial
  producer _ := trivial
  reserved _ _ hr := by cases hr
  disjoint _ _ _ _ _ hr := by cases hr

/-! ## Every slot from front to back -/

omit [DecidableEq Tid] [Fintype Tid] in
/-- The number of slots from the front pointer up to the back pointer. -/
def numSlots (s : PoolSystem Tid) : Nat :=
  (s.pool.dataBuffersBack + s.pool.bufferPoolSizeGapped - s.pool.dataBuffersFront) %
    s.pool.bufferPoolSizeGapped

/-- Every slot from front to back holds a buffer, apart from the `taken` first
ones, which the consumer has cleared on its way to storing the front pointer. -/
def SlotsFilled (s : PoolSystem Tid) (taken : Nat) : Prop :=
  ∀ i, i < s.numSlots → taken ≤ i →
    (s.pool.dataBuffers ((s.pool.dataBuffersFront + i) % s.pool.bufferPoolSizeGapped)).isSome

omit [DecidableEq Tid] in
theorem Inv.numSlots_eq {s : PoolSystem Tid} {F B R : Nat} {pos : Tid → Nat}
    (h : s.Inv F B R pos) : s.numSlots = B - F := by
  obtain ⟨hle, hcap⟩ := h.back_le
  have hg : s.pool.bufferPoolSizeGapped = s.pool.bufferPoolSize + 1 := rfl
  rw [numSlots, h.front_eq, h.back_eq]
  exact Ring.sub_mod_eq hle (by omega)

omit [DecidableEq Tid] in
theorem Inv.slotsFilled {s : PoolSystem Tid} {F B R : Nat} {pos : Tid → Nat}
    (h : s.Inv F B R pos) : s.SlotsFilled s.consumer.taken := by
  intro i hi htaken
  rw [h.numSlots_eq] at hi
  rw [h.front_eq, Nat.mod_add_mod]
  exact h.filled (F + i) (by omega) (by omega)

/-- **A run whose threads move the back pointer from their own reservations
keeps the invariant.** -/
theorem exists_inv_of_publishedInTurn (bufferPoolSize : Nat) (as : List (PoolAction Tid))
    {s : PoolSystem Tid} (hrun : Lts.exec (step .exact) (init bufferPoolSize) as = some s)
    (hturn : Lts.Along (step .exact) PublishedInTurn (init bufferPoolSize) as) :
    ∃ F B R pos, s.Inv F B R pos := by
  refine Lts.exec_invariant_along (I := fun s => ∃ F B R pos, s.Inv F B R pos) ?_
    ⟨0, _, _, _, init_inv bufferPoolSize⟩ hturn hrun
  rintro s a t ⟨F, B, R, pos, h⟩ hp hs
  exact h.step hp hs

end PoolSystem

end Ibdxnet.Dx
