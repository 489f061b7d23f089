import Ibdxnet.Lib.Exec
import Ibdxnet.Lib.Ring
import Ibdxnet.Sys.Exception

/-!
# The pool of work request contexts

`SendWorkRequestCtxPool`: a ring of `m_poolSize` slots and a counter of the
objects that are out.  Front and back may be equal both in the full and in the
empty pool; the counter tells the two apart.

`Holds p xs` says that the pool is well formed and holds the contexts `xs`,
named by their index in `m_pool`, the next one to be popped first:

    pop     x :: xs  returns x and leaves xs     (Holds.run_pop)
    push c  xs       leaves xs ++ [c]            (Holds.run_push)
-/

namespace Ibdxnet.Msgrc

open Sys

structure SendWorkRequestCtxPool where
  poolSize : Nat
  nonReturnedBuffers : Nat
  front : Nat
  back : Nat
  queue : Nat → Option Nat

namespace SendWorkRequestCtxPool

/-! ## Algorithm -/

/-- The constructor: slot `i` holds context `i`. -/
def init (numWorkRequests : Nat) : SendWorkRequestCtxPool where
  poolSize := numWorkRequests
  nonReturnedBuffers := 0
  front := 0
  back := 0
  queue i := if i < numWorkRequests then some i else none

/-- `Pop` -/
def pop : EStateM Exception SendWorkRequestCtxPool Nat := do
  let p ← get
  if p.nonReturnedBuffers = p.poolSize then
    throw (.poolIllegalState "Pool ran dry, m_front %d, m_back %d")
  else
    match p.queue p.front with
    | none => throw (.poolIllegalState "Pop null element, m_front %d, m_back %d")
    | some tmp =>
      set { p with
        queue := Function.update p.queue p.front none
        front := (p.front + 1) % p.poolSize
        nonReturnedBuffers := p.nonReturnedBuffers + 1 }
      pure tmp

/-- `Push` -/
def push (refWorkRequest : Nat) : EStateM Exception SendWorkRequestCtxPool Unit := do
  let p ← get
  if p.nonReturnedBuffers = 0 then
    throw (.poolIllegalState "Pool overflow, m_front %d, m_back %d")
  else if (p.queue p.back).isSome then
    throw (.poolIllegalState "Pushing to index with non null element, m_front %d, m_back %d")
  else
    set { p with
      queue := Function.update p.queue p.back (some refWorkRequest)
      back := (p.back + 1) % p.poolSize
      nonReturnedBuffers := p.nonReturnedBuffers - 1 }

/-! ## The pool as a FIFO queue -/

/-- The pool holds the contexts `xs`, the first one at the front. -/
structure Holds (p : SendWorkRequestCtxPool) (xs : List Nat) : Prop where
  front_lt : 0 < p.poolSize → p.front < p.poolSize
  back_eq : 0 < p.poolSize → p.back = (p.front + xs.length) % p.poolSize
  length_add : xs.length + p.nonReturnedBuffers = p.poolSize
  filled : Ring.window p.queue p.poolSize p.front xs.length = xs.map some
  free : ∀ i, xs.length ≤ i → i < p.poolSize → p.queue ((p.front + i) % p.poolSize) = none

theorem init_holds (numWorkRequests : Nat) :
    (init numWorkRequests).Holds (List.range numWorkRequests) where
  front_lt h := h
  back_eq _ := by simp [init]
  length_add := by simp [init]
  filled := (Ring.Queue.range (Nat.le_refl numWorkRequests)).filled
  free := (Ring.Queue.range (Nat.le_refl numWorkRequests)).free

namespace Holds

variable {p : SendWorkRequestCtxPool} {x : Nat} {xs : List Nat}

theorem queue (h : p.Holds xs) : Ring.Queue p.queue p.poolSize p.front xs :=
  ⟨h.filled, h.free⟩

theorem run_pop_nil (h : p.Holds []) :
    pop.run p = .error (.poolIllegalState "Pool ran dry, m_front %d, m_back %d") p := by
  have hdry : p.nonReturnedBuffers = p.poolSize := by simpa using h.length_add
  simp only [pop, EStateM.run_bind, EStateM.run_get, if_pos hdry, Exec.run_throw]

theorem run_pop (h : p.Holds (x :: xs)) :
    ∃ q, pop.run p = .ok x q ∧ q.Holds xs ∧ q.poolSize = p.poolSize := by
  have hlen := h.length_add
  rw [List.length_cons] at hlen
  have hfirst := h.queue.head_eq
  have hpop := Ring.Queue.mod_iff.mpr (h.queue.pop (by omega))
  rw [Nat.mod_eq_of_lt (h.front_lt (by omega))] at hfirst hpop
  refine ⟨{ p with
    queue := Function.update p.queue p.front none
    front := (p.front + 1) % p.poolSize
    nonReturnedBuffers := p.nonReturnedBuffers + 1 }, ?_,
    ⟨?_, ?_, ?_, hpop.filled, hpop.free⟩, rfl⟩
  · simp only [pop, EStateM.run_bind, EStateM.run_get,
      if_neg (show p.nonReturnedBuffers ≠ p.poolSize by omega), hfirst, EStateM.run_set,
      EStateM.run_pure]
  · intro hpos
    exact Nat.mod_lt _ hpos
  · intro hpos
    simp only [Nat.mod_add_mod]
    rw [h.back_eq hpos, List.length_cons, Nat.add_assoc, Nat.add_comm 1]
  · simp only
    omega

/-- A context that is out comes back to the end of the queue. -/
theorem run_push (h : p.Holds xs) (hlen : xs.length < p.poolSize) (c : Nat) :
    ∃ q, (push c).run p = .ok () q ∧ q.Holds (xs ++ [c]) ∧ q.poolSize = p.poolSize := by
  have hcount := h.length_add
  have hfree : p.queue p.back = none := by
    rw [h.back_eq (by omega)]
    exact h.free _ (Nat.le_refl _) hlen
  have hpush := h.queue.push hlen c
  rw [← h.back_eq (by omega)] at hpush
  refine ⟨{ p with
    queue := Function.update p.queue p.back (some c)
    back := (p.back + 1) % p.poolSize
    nonReturnedBuffers := p.nonReturnedBuffers - 1 }, ?_,
    ⟨h.front_lt, ?_, ?_, hpush.filled, hpush.free⟩, rfl⟩
  · simp only [push, EStateM.run_bind, EStateM.run_get,
      if_neg (show p.nonReturnedBuffers ≠ 0 by omega), hfree, Option.isSome_none,
      Bool.false_eq_true, if_false, EStateM.run_set]
  · intro hpos
    simp only [List.length_append, List.length_singleton]
    rw [h.back_eq hpos, Nat.mod_add_mod, Nat.add_assoc]
  · simp only [List.length_append, List.length_singleton]
    omega

/-- With every context in the pool a push throws and changes nothing. -/
theorem run_push_full (h : p.Holds xs) (hlen : p.poolSize ≤ xs.length) (c : Nat) :
    (push c).run p = .error (.poolIllegalState "Pool overflow, m_front %d, m_back %d") p := by
  have hcount := h.length_add
  have hzero : p.nonReturnedBuffers = 0 := by omega
  simp only [push, EStateM.run_bind, EStateM.run_get, if_pos hzero, Exec.run_throw]

/-- However a push ends, the pool stays well formed. -/
theorem final_push (h : p.Holds xs) (c : Nat) : ∃ ys, (Exec.final ((push c).run p)).Holds ys := by
  rcases Nat.lt_or_ge xs.length p.poolSize with hlen | hlen
  · obtain ⟨q, hrun, hq, -⟩ := h.run_push hlen c
    rw [hrun]
    exact ⟨_, hq⟩
  · rw [h.run_push_full hlen c]
    exact ⟨_, h⟩

end Holds

end SendWorkRequestCtxPool

end Ibdxnet.Msgrc
