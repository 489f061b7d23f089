import Ibdxnet.Dx.RecvBufferPool

/-!
# Receive work requests and their pool

`ScatterGatherList`, `RecvWorkRequest` and `RecvWorkRequestPool`.  The objects
of the pool are named by their index in `m_pool`; `m_recvWr.wr_id`, a pointer to
the object itself, is that index, and the `next` pointer the index of the
successor.  Unlike `SendWorkRequestCtxPool` the pool keeps one slot free to tell
empty from full:

    pop     []       throws                      (Holds.run_pop_nil)
    pop     x :: xs  returns x and leaves xs     (Holds.run_pop)
    push c  xs       leaves xs ++ [c]            (Holds.run_push)
-/

namespace Ibdxnet.Msgrc

open Sys Dx

/-! ## Scatter-gather lists -/

/-- The first `m_numUsedElems` elements of the list; entry `j` of `m_sgeList` is
address, size and key of entry `j` of `m_refsMemReg`. -/
structure ScatterGatherList where
  maxSges : Nat
  refsMemReg : List IbMemReg
  deriving DecidableEq, Repr

namespace ScatterGatherList

def numUsedElems (l : ScatterGatherList) : Nat := l.refsMemReg.length

def reset (l : ScatterGatherList) : ScatterGatherList := { l with refsMemReg := [] }

def add (refMemReg : IbMemReg) : EStateM Exception ScatterGatherList Unit := do
  let l ← get
  if l.numUsedElems ≥ l.maxSges then
    throw (.illegalState "List overflow: %d")
  else
    set { l with refsMemReg := l.refsMemReg ++ [refMemReg] }

end ScatterGatherList

/-- `ibv_recv_wr` -/
structure IbvRecvWr where
  wrId : Nat
  next : Option Nat
  sgList : List IbMemReg
  deriving DecidableEq, Repr

structure RecvWorkRequest where
  recvWr : IbvRecvWr
  sgls : ScatterGatherList
  deriving DecidableEq, Repr

namespace RecvWorkRequest

def init (maxSge : Nat) : RecvWorkRequest where
  recvWr := ⟨0, none, []⟩
  sgls := ⟨maxSge, []⟩

/-- `Prepare` of the object `this`. -/
def prepare (this : Nat) (wr : RecvWorkRequest) : RecvWorkRequest :=
  { wr with recvWr := ⟨this, none, wr.sgls.refsMemReg⟩ }

def chain (refOther : Nat) (wr : RecvWorkRequest) : RecvWorkRequest :=
  { wr with recvWr := { wr.recvWr with next := some refOther } }

end RecvWorkRequest

/-! ## The pool -/

structure RecvWorkRequestPool where
  poolSize : Nat
  front : Nat
  back : Nat
  queue : Nat → Option Nat

namespace RecvWorkRequestPool

/-- `m_poolSizeGapped` -/
def poolSizeGapped (p : RecvWorkRequestPool) : Nat := p.poolSize + 1

/-- The constructor: slot `i` holds object `i`, the last slot is the gap. -/
def init (numWorkRequests : Nat) : RecvWorkRequestPool where
  poolSize := numWorkRequests
  front := 0
  back := numWorkRequests
  queue i := if i < numWorkRequests then some i else none

/-- `Pop` -/
def pop : EStateM Exception RecvWorkRequestPool Nat := do
  let p ← get
  if p.front = p.back then
    throw (.poolIllegalState "Pool ran dry, m_front %d, m_back %d")
  else
    match p.queue p.front with
    | none => throw (.poolIllegalState "Pop null element, m_front %d, m_back %d")
    | some tmp =>
      set { p with
        queue := Function.update p.queue p.front none
        front := (p.front + 1) % p.poolSizeGapped }
      pure tmp

/-- `Push` -/
def push (refWorkRequest : Nat) : EStateM Exception RecvWorkRequestPool Unit := do
  let p ← get
  if (p.back + 1) % p.poolSizeGapped = p.front then
    throw (.poolIllegalState "Pool overflow, m_front %d, m_back %d")
  else if (p.queue p.back).isSome then
    throw (.poolIllegalState "Pushing to index with non null element, m_front %d, m_back %d")
  else
    set { p with
      queue := Function.update p.queue p.back (some refWorkRequest)
      back := (p.back + 1) % p.poolSizeGapped }

/-! ## The pool as a FIFO queue -/

/-- The pool holds the objects `xs`, the first one at the front. -/
structure Holds (p : RecvWorkRequestPool) (xs : List Nat) : Prop where
  front_lt : p.front < p.poolSizeGapped
  back_eq : p.back = (p.front + xs.length) % p.poolSizeGapped
  length_le : xs.length ≤ p.poolSize
  filled : Ring.window p.queue p.poolSizeGapped p.front xs.length = xs.map some
  free : ∀ i, xs.length ≤ i → i < p.poolSizeGapped →
    p.queue ((p.front + i) % p.poolSizeGapped) = none

theorem init_holds (numWorkRequests : Nat) :
    (init numWorkRequests).Holds (List.range numWorkRequests) where
  front_lt := Nat.zero_lt_succ _
  back_eq := by simp [init, poolSizeGapped]
  length_le := by simp [init]
  filled := (Ring.Queue.range (Nat.le_succ numWorkRequests)).filled
  free := (Ring.Queue.range (Nat.le_succ numWorkRequests)).free

namespace Holds

variable {p : RecvWorkRequestPool} {x : Nat} {xs : List Nat}

theorem queue (h : p.Holds xs) : Ring.Queue p.queue p.poolSizeGapped p.front xs :=
  ⟨h.filled, h.free⟩

theorem run_pop_nil (h : p.Holds []) :
    pop.run p = .error (.poolIllegalState "Pool ran dry, m_front %d, m_back %d") p := by
  have hdry : p.front = p.back := by
    rw [h.back_eq, List.length_nil, Nat.add_zero, Nat.mod_eq_of_lt h.front_lt]
  simp only [pop, EStateM.run_bind, EStateM.run_get, if_pos hdry, Exec.run_throw]

theorem run_pop (h : p.Holds (x :: xs)) :
    ∃ q, pop.run p = .ok x q ∧ q.Holds xs ∧ q.poolSize = p.poolSize := by
  have hf := h.front_lt
  have hlen := h.length_le
  have hg : p.poolSizeGapped = p.poolSize + 1 := rfl
  rw [List.length_cons] at hlen
  have hfirst := h.queue.head_eq
  have hpop := Ring.Queue.mod_iff.mpr (h.queue.pop (by omega))
  rw [Nat.mod_eq_of_lt hf] at hfirst hpop
  have hne : p.front ≠ p.back := by
    rw [h.back_eq, List.length_cons]
    intro heq
    have heq' : p.front % p.poolSizeGapped = (p.front + (xs.length + 1)) % p.poolSizeGapped := by
      rw [← heq, Nat.mod_eq_of_lt hf]
    have := Ring.eq_of_mod_eq (by omega) (by omega) heq'
    omega
  refine ⟨{ p with
    queue := Function.update p.queue p.front none
    front := (p.front + 1) % p.poolSizeGapped }, ?_,
    ⟨?_, ?_, ?_, hpop.filled, hpop.free⟩, rfl⟩
  · simp only [pop, EStateM.run_bind, EStateM.run_get, if_neg hne, hfirst, EStateM.run_set,
      EStateM.run_pure]
  · exact Nat.mod_lt _ (by rw [hg]; omega)
  · change p.back = ((p.front + 1) % p.poolSizeGapped + xs.length) % p.poolSizeGapped
    rw [h.back_eq, List.length_cons, Nat.mod_add_mod]
    congr 1
    omega
  · simp only
    omega

/-- An object that is out comes back to the end of the queue. -/
theorem run_push (h : p.Holds xs) (hlen : xs.length < p.poolSize) (c : Nat) :
    ∃ q, (push c).run p = .ok () q ∧ q.Holds (xs ++ [c]) ∧ q.poolSize = p.poolSize := by
  have hf := h.front_lt
  have hg : p.poolSizeGapped = p.poolSize + 1 := rfl
  have hfree : p.queue p.back = none := by
    rw [h.back_eq]
    exact h.free _ (Nat.le_refl _) (by omega)
  have hpush := h.queue.push (by omega) c
  rw [← h.back_eq] at hpush
  have hne : (p.back + 1) % p.poolSizeGapped ≠ p.front := by
    rw [h.back_eq, Nat.mod_add_mod]
    intro heq
    have heq' : p.front % p.poolSizeGapped = (p.front + xs.length + 1) % p.poolSizeGapped := by
      rw [heq, Nat.mod_eq_of_lt hf]
    have := Ring.eq_of_mod_eq (by omega) (by omega) heq'
    omega
  refine ⟨{ p with
    queue := Function.update p.queue p.back (some c)
    back := (p.back + 1) % p.poolSizeGapped }, ?_, ⟨hf, ?_, ?_, hpush.filled, hpush.free⟩, rfl⟩
  · simp only [push, EStateM.run_bind, EStateM.run_get, if_neg hne, hfree, Option.isSome_none,
      Bool.false_eq_true, if_false, EStateM.run_set]
  · change (p.back + 1) % p.poolSizeGapped = (p.front + (xs ++ [c]).length) % p.poolSizeGapped
    rw [h.back_eq, Nat.mod_add_mod, List.length_append, List.length_singleton, Nat.add_assoc]
  · simp only [List.length_append, List.length_singleton]
    omega

end Holds

end RecvWorkRequestPool

end Ibdxnet.Msgrc
