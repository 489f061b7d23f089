import Ibdxnet.Lib.Arith
import Ibdxnet.Lib.Exec
import Ibdxnet.Lib.Ring
import Ibdxnet.Sys.Exception

/-!
# The receive buffer pool

`dx::RecvBufferPool`: a ring of `m_bufferPoolSizeGapped = m_bufferPoolSize + 1`
slots, the slot before `m_dataBuffersFront` kept free so that equal front and
back mean empty.  The operations here run without interruption (the pool as its
single threaded callers see it); `RecvBufferPoolSteps` takes the same code
apart into its atomic accesses.

The code adds and subtracts positions in `uint32_t` before it takes them modulo
the number of slots.  The arithmetic is a parameter of each operation (`Arith`).

`Holds p xs` says that the pool is well formed and holds the buffers `xs` in
the order they will be handed out.  As long as no sum leaves the range of the
arithmetic, the operations are a FIFO queue on `xs`:

    front + k in range       GetBuffers takes the first k buffers   (run_getBuffers)
    backRes + n in range     ReturnBuffers appends n buffers        (run_returnBuffers)

The calls for a single buffer only ever add one.  The statistics counters
`m_nonReturnedBuffers` and `m_insufficientBufferCounter` only feed log messages
and are left out.
-/

namespace Ibdxnet.Dx

open Sys

/-- `core::IbMemReg*`: the buffers of the pool, named by their index in `m_bufferPool`. -/
abbrev IbMemReg := Nat

structure RecvBufferPool where
  bufferPoolSize : Nat
  dataBuffersFront : Nat
  dataBuffersBack : Nat
  dataBuffersBackRes : Nat
  dataBuffers : Nat → Option IbMemReg

namespace RecvBufferPool

/-- The number of slots. -/
def bufferPoolSizeGapped (p : RecvBufferPool) : Nat := p.bufferPoolSize + 1

/-- The pool after `m_dataBuffers[slot] = buffer`. -/
def setSlot (p : RecvBufferPool) (slot : Nat) (buffer : Option IbMemReg) : RecvBufferPool :=
  { p with dataBuffers := Function.update p.dataBuffers slot buffer }

@[simp] theorem setSlot_dataBuffers (p : RecvBufferPool) (slot : Nat) (b : Option IbMemReg) :
    (p.setSlot slot b).dataBuffers = Function.update p.dataBuffers slot b := rfl

@[simp] theorem setSlot_bufferPoolSizeGapped (p : RecvBufferPool) (slot : Nat)
    (b : Option IbMemReg) : (p.setSlot slot b).bufferPoolSizeGapped = p.bufferPoolSizeGapped := rfl

/-! ## Algorithm -/

/-- The constructor: slot `i` holds buffer `i`, the last slot is the gap. -/
def init (bufferPoolSize : Nat) : RecvBufferPool where
  bufferPoolSize := bufferPoolSize
  dataBuffersFront := 0
  dataBuffersBack := bufferPoolSize
  dataBuffersBackRes := bufferPoolSize
  dataBuffers i := if i < bufferPoolSize then some i else none

/-- `m_bufferPoolSizeGapped` -/
def sizeGapped (A : Arith) (p : RecvBufferPool) : Nat := A.add p.bufferPoolSize 1

@[simp] theorem sizeGapped_exact (p : RecvBufferPool) :
    p.sizeGapped .exact = p.bufferPoolSizeGapped := rfl

/-- The number of buffers `GetBuffers` counts as available.  With the back
pointer wrapped in front of the front pointer it subtracts from
`m_bufferPoolSize`, not from the number of slots. -/
def available (A : Arith) (p : RecvBufferPool) : Nat :=
  if p.dataBuffersFront ≤ p.dataBuffersBack then A.sub p.dataBuffersBack p.dataBuffersFront
  else A.add (A.sub p.bufferPoolSize p.dataBuffersFront) p.dataBuffersBack

/-- The loop of `GetBuffers`: take slots `front + i, front + i + 1, …`. -/
def takeSlots (A : Arith) (front : Nat) :
    Nat → Nat → EStateM Exception RecvBufferPool (List IbMemReg)
  | _, 0 => pure []
  | i, k + 1 => do
    let p ← get
    let slot := A.add front i % p.sizeGapped A
    match p.dataBuffers slot with
    | none => throw (.illegalState "Got invalid (null) buffer from pool, pos %d")
    | some buffer =>
      set (p.setSlot slot none)
      let rest ← takeSlots A front (i + 1) k
      pure (buffer :: rest)

/-- `GetBuffers` -/
def getBuffers (A : Arith) (count : Nat) :
    EStateM Exception RecvBufferPool (List IbMemReg) := do
  if count = 0 then
    pure []
  else
    let p ← get
    if p.dataBuffersFront = p.dataBuffersBack then
      pure []
    else
      let count := min (p.available A) count
      let retBuffers ← takeSlots A p.dataBuffersFront 0 count
      modify fun q =>
        { q with dataBuffersFront := A.add p.dataBuffersFront count % p.sizeGapped A }
      pure retBuffers

/-- `GetBuffer`, `none` where the source returns a null pointer. -/
def getBuffer (A : Arith) : EStateM Exception RecvBufferPool (Option IbMemReg) := do
  let p ← get
  if p.dataBuffersFront = p.dataBuffersBack then
    pure none
  else
    match p.dataBuffers p.dataBuffersFront with
    | none => throw (.illegalState "Got invalid (null) buffer from pool, pos %d")
    | some buffer =>
      set { p.setSlot p.dataBuffersFront none with
        dataBuffersFront := A.add p.dataBuffersFront 1 % p.sizeGapped A }
      pure (some buffer)

/-- The loop of `ReturnBuffers`: fill slots `backRes + i, backRes + i + 1, …`. -/
def fillSlots (A : Arith) (backRes : Nat) :
    Nat → List IbMemReg → EStateM Exception RecvBufferPool Unit
  | _, [] => pure ()
  | i, buffer :: rest => do
    let p ← get
    let slot := A.add backRes i % p.sizeGapped A
    if (p.dataBuffers slot).isSome then
      throw (.illegalState "Overwriting existing buffer %p at pos %d with %p")
    else
      set (p.setSlot slot (some buffer))
      fillSlots A backRes (i + 1) rest

/-- `ReturnBuffers`.  Run alone, both compare-exchanges succeed at once. -/
def returnBuffers (A : Arith) (buffers : List IbMemReg) :
    EStateM Exception RecvBufferPool Unit := do
  if buffers = [] then
    pure ()
  else
    let p ← get
    let backRes := p.dataBuffersBackRes
    let next := A.add backRes buffers.length % p.sizeGapped A
    if next = p.dataBuffersFront then
      throw (.illegalState "Pool overflow, this should not happen: backRes %d, front %d, count %d")
    else
      set { p with dataBuffersBackRes := next }
      fillSlots A backRes 0 buffers
      modify fun q => { q with dataBuffersBack := next }

/-- `ReturnBuffer` -/
def returnBuffer (A : Arith) (buffer : IbMemReg) : EStateM Exception RecvBufferPool Unit := do
  let p ← get
  let backRes := p.dataBuffersBackRes
  let next := A.add backRes 1 % p.sizeGapped A
  if next = p.dataBuffersFront then
    throw (.illegalState "Pool overflow, this should not happen: backRes %d, front %d")
  else if (p.dataBuffers backRes).isSome then
    set { p with dataBuffersBackRes := next }
    throw (.illegalState "Overwriting existing buffer %p at pos %d with %p")
  else
    set { p.setSlot backRes (some buffer) with
      dataBuffersBackRes := next
      dataBuffersBack := next }

/-! ## The pool as a FIFO queue -/

/-- The pool holds exactly the buffers `xs`, first out first: the slots from
front to back hold them, every other slot is null, and nothing is reserved. -/
structure Holds (p : RecvBufferPool) (xs : List IbMemReg) : Prop where
  front_lt : p.dataBuffersFront < p.bufferPoolSizeGapped
  back_eq : p.dataBuffersBack = (p.dataBuffersFront + xs.length) % p.bufferPoolSizeGapped
  backRes_eq : p.dataBuffersBackRes = p.dataBuffersBack
  length_le : xs.length ≤ p.bufferPoolSize
  filled : Ring.window p.dataBuffers p.bufferPoolSizeGapped p.dataBuffersFront xs.length =
    xs.map some
  free : ∀ i, xs.length ≤ i → i < p.bufferPoolSizeGapped →
    p.dataBuffers ((p.dataBuffersFront + i) % p.bufferPoolSizeGapped) = none

/-- How many buffers `GetBuffers(count)` takes from a pool that holds `xs`. -/
def numBuffers (p : RecvBufferPool) (count : Nat) (xs : List IbMemReg) : Nat :=
  if xs = [] then 0 else min (p.available .exact) count

/-- The pool after `count` buffers were taken from the front. -/
def afterGet (p : RecvBufferPool) (count : Nat) : RecvBufferPool :=
  { p with
    dataBuffersFront := (p.dataBuffersFront + count) % p.bufferPoolSizeGapped
    dataBuffers := Ring.write p.dataBuffers p.bufferPoolSizeGapped p.dataBuffersFront
      (List.replicate count none) }

/-- The pool after `buffers` were put at the back. -/
def afterReturn (p : RecvBufferPool) (buffers : List IbMemReg) : RecvBufferPool :=
  { p with
    dataBuffersBack := (p.dataBuffersBackRes + buffers.length) % p.bufferPoolSizeGapped
    dataBuffersBackRes := (p.dataBuffersBackRes + buffers.length) % p.bufferPoolSizeGapped
    dataBuffers := Ring.write p.dataBuffers p.bufferPoolSizeGapped p.dataBuffersBackRes
      (buffers.map some) }

@[simp] theorem bufferPoolSizeGapped_mk (n f b r : Nat) (q : Nat → Option IbMemReg) :
    (RecvBufferPool.mk n f b r q).bufferPoolSizeGapped = n + 1 := rfl

/-! ## Lemmas -/

/-- The new pool holds all buffers in the order of their index. -/
theorem init_holds (n : Nat) : (init n).Holds (List.range n) where
  front_lt := by simp [init, bufferPoolSizeGapped]
  back_eq := by simp [init, bufferPoolSizeGapped]
  backRes_eq := rfl
  length_le := by simp [init]
  filled := (Ring.Queue.range (Nat.le_succ n)).filled
  free := (Ring.Queue.range (Nat.le_succ n)).free

section
variable {A : Arith} {N : Nat} (hA : A.ExactBelow N)

include hA

theorem sizeGapped_eq {p : RecvBufferPool} (hG : p.bufferPoolSizeGapped < N) :
    p.sizeGapped A = p.bufferPoolSizeGapped := hA.add hG

theorem run_takeSlots {p : RecvBufferPool} (hG : p.bufferPoolSizeGapped < N) {front i : Nat}
    {ys : List IbMemReg} (hsum : front + i + ys.length ≤ N)
    (h : Ring.window p.dataBuffers p.bufferPoolSizeGapped (front + i) ys.length = ys.map some)
    (hlen : ys.length ≤ p.bufferPoolSizeGapped) :
    (takeSlots A front i ys.length).run p = .ok ys { p with
      dataBuffers := Ring.write p.dataBuffers p.bufferPoolSizeGapped (front + i)
        (List.replicate ys.length none) } := by
  induction ys generalizing p i with
  | nil => rfl
  | cons y ys ih =>
    simp only [List.length_cons, Ring.window_succ, List.map_cons, List.cons.injEq] at h hlen hsum
    obtain ⟨hy, hys⟩ := h
    have ih' := @ih (p.setSlot ((front + i) % p.bufferPoolSizeGapped) none) hG (i + 1)
      (by omega) (by
        rw [← hys]
        exact Ring.window_tail_update _ _ _ _ (by omega)) (by
        rw [setSlot_bufferPoolSizeGapped]; omega)
    simp only [List.length_cons, takeSlots, EStateM.run_bind, EStateM.run_get,
      sizeGapped_eq hA hG, hA.add (show front + i < N by omega), hy, EStateM.run_set]
    rw [ih']
    rfl

theorem run_fillSlots {p : RecvBufferPool} (hG : p.bufferPoolSizeGapped < N) {backRes i : Nat}
    {ys : List IbMemReg} (hsum : backRes + i + ys.length ≤ N)
    (h : ∀ j, j < ys.length →
      p.dataBuffers ((backRes + i + j) % p.bufferPoolSizeGapped) = none)
    (hlen : ys.length ≤ p.bufferPoolSizeGapped) :
    (fillSlots A backRes i ys).run p = .ok () { p with
      dataBuffers := Ring.write p.dataBuffers p.bufferPoolSizeGapped (backRes + i)
        (ys.map some) } := by
  induction ys generalizing p i with
  | nil => rfl
  | cons y ys ih =>
    simp only [List.length_cons] at h hlen hsum
    have hy := h 0 (by omega)
    have hys : ∀ j, j < ys.length →
        (p.setSlot ((backRes + i) % p.bufferPoolSizeGapped) (some y)).dataBuffers
          ((backRes + (i + 1) + j) % p.bufferPoolSizeGapped) = none := by
      intro j hj
      rw [setSlot_dataBuffers, Function.update_of_ne]
      · rw [show backRes + (i + 1) + j = backRes + i + (j + 1) by omega]
        exact h (j + 1) (by omega)
      · intro he
        have := (Ring.mod_eq_iff_of_lt (f := backRes + i) (by omega) (by omega) (by omega)
          (by omega)).mp he
        omega
    have ih' := @ih (p.setSlot ((backRes + i) % p.bufferPoolSizeGapped) (some y)) hG (i + 1)
      (by omega) hys (by rw [setSlot_bufferPoolSizeGapped]; omega)
    rw [Nat.add_zero] at hy
    simp only [fillSlots, EStateM.run_bind, EStateM.run_get, sizeGapped_eq hA hG,
      hA.add (show backRes + i < N by omega), hy, Option.isSome_none, Bool.false_eq_true,
      if_false, EStateM.run_set]
    rw [ih']
    rfl

end

section
variable {p : RecvBufferPool} {xs : List IbMemReg} (h : p.Holds xs)

include h

theorem Holds.queue :
    Ring.Queue p.dataBuffers p.bufferPoolSizeGapped p.dataBuffersFront xs :=
  ⟨h.filled, h.free⟩

theorem Holds.back_lt : p.dataBuffersBack < p.bufferPoolSizeGapped := by
  rw [h.back_eq]
  exact Nat.mod_lt _ (Nat.zero_lt_succ _)

theorem Holds.backRes_lt : p.dataBuffersBackRes < p.bufferPoolSizeGapped := by
  rw [h.backRes_eq]
  exact h.back_lt

theorem Holds.front_eq_back_iff : p.dataBuffersFront = p.dataBuffersBack ↔ xs = [] := by
  have hf := h.front_lt
  have hl := h.length_le
  rw [h.back_eq, ← List.length_eq_zero_iff]
  constructor
  · intro he
    rw [← Nat.mod_eq_of_lt hf] at he
    rw [Nat.mod_add_mod] at he
    have hg : p.bufferPoolSizeGapped = p.bufferPoolSize + 1 := rfl
    have := Ring.eq_of_mod_eq (by omega) (by omega) he
    omega
  · intro he
    rw [he, Nat.add_zero, Nat.mod_eq_of_lt hf]

/-- The count of available buffers is exact, except that it is one too low
while the back pointer is wrapped in front of the front pointer. -/
theorem Holds.available_eq : p.available .exact =
    if p.dataBuffersFront ≤ p.dataBuffersBack then xs.length else xs.length - 1 := by
  have hf := h.front_lt
  have hl := h.length_le
  have hb := h.back_eq
  have hg : p.bufferPoolSizeGapped = p.bufferPoolSize + 1 := rfl
  have hmod := Nat.mod_eq_of_lt hf
  simp only [available, Arith.exact]
  rcases Ring.add_mod_cases p.dataBuffersFront (show xs.length < p.bufferPoolSizeGapped by omega)
    with ⟨h1, _⟩ | ⟨h1, _⟩
  · rw [if_pos (by omega), if_pos (by omega)]
    omega
  · rw [if_neg (by omega), if_neg (by omega)]
    omega

theorem Holds.available_congr {A : Arith} {N : Nat} (hA : A.ExactBelow N)
    (hG : p.bufferPoolSizeGapped < N) : p.available A = p.available .exact := by
  have hf := h.front_lt
  have hb := h.back_lt
  have hg : p.bufferPoolSizeGapped = p.bufferPoolSize + 1 := rfl
  simp only [available, Arith.exact]
  split
  · exact hA.sub (by omega) (by omega)
  · rw [hA.sub (by omega) (by omega), hA.add (by omega)]

theorem Holds.numBuffers_le (count : Nat) : p.numBuffers count xs ≤ xs.length := by
  unfold numBuffers
  have := h.available_eq
  split
  · simp
  · split at this <;> omega

/-- Nothing taken, nothing changed. -/
theorem Holds.afterGet_zero : p.afterGet 0 = p := by
  have hfront : (p.dataBuffersFront + 0) % p.bufferPoolSizeGapped = p.dataBuffersFront :=
    Nat.mod_eq_of_lt h.front_lt
  rw [RecvBufferPool.afterGet, hfront]
  rfl

/-- `GetBuffers` hands out the buffers that were returned first. -/
theorem Holds.run_getBuffers {A : Arith} {N : Nat} (hA : A.ExactBelow N)
    (hG : p.bufferPoolSizeGapped < N) {count : Nat}
    (hsum : p.dataBuffersFront + p.numBuffers count xs < N) :
    (getBuffers A count).run p =
      .ok (xs.take (p.numBuffers count xs)) (p.afterGet (p.numBuffers count xs)) := by
  have hl := h.length_le
  have hg : p.bufferPoolSizeGapped = p.bufferPoolSize + 1 := rfl
  by_cases hc : count = 0
  · have hnum : p.numBuffers count xs = 0 := by simp [numBuffers, hc]
    rw [hnum, h.afterGet_zero]
    simp [getBuffers, hc]
  by_cases he : xs = []
  · have hnum : p.numBuffers count xs = 0 := by simp [numBuffers, he]
    rw [hnum, h.afterGet_zero]
    simp [getBuffers, hc, h.front_eq_back_iff.mpr he]
  have hk := h.numBuffers_le count
  have hnum : min (p.available A) count = p.numBuffers count xs := by
    simp [numBuffers, he, h.available_congr hA hG]
  generalize p.numBuffers count xs = k at hk hnum hsum
  have hwin : Ring.window p.dataBuffers p.bufferPoolSizeGapped (p.dataBuffersFront + 0)
      (xs.take k).length = (xs.take k).map some := by
    rw [List.length_take, Nat.min_eq_left hk, Nat.add_zero, List.map_take, ← h.filled,
      Ring.take_window _ _ _ hk]
  have hrun := run_takeSlots hA hG (by simp; omega) hwin (by simp; omega)
  simp only [List.length_take, Nat.min_eq_left hk, Nat.add_zero] at hrun
  simp only [getBuffers, if_neg hc, EStateM.run_bind, EStateM.run_get,
    if_neg (mt h.front_eq_back_iff.mp he), hnum, hrun, EStateM.run_modify, EStateM.run_pure,
    hA.add hsum, sizeGapped_eq hA hG]
  rfl

theorem Holds.afterGet {k : Nat} (hk : k ≤ xs.length) : (p.afterGet k).Holds (xs.drop k) := by
  have hl := h.length_le
  have hg : p.bufferPoolSizeGapped = p.bufferPoolSize + 1 := rfl
  have hdrop := Ring.Queue.mod_iff.mpr (h.queue.drop (by omega) hk)
  refine ⟨Nat.mod_lt _ (Nat.zero_lt_succ _), ?_, h.backRes_eq, ?_, hdrop.filled, hdrop.free⟩
  · change p.dataBuffersBack = ((p.dataBuffersFront + k) % p.bufferPoolSizeGapped +
      (xs.drop k).length) % p.bufferPoolSizeGapped
    rw [h.back_eq, Nat.mod_add_mod, List.length_drop]
    congr 1
    omega
  · rw [List.length_drop]
    exact Nat.le_trans (Nat.sub_le _ _) hl

/-- The position behind `ys` more buffers, counted from the front. -/
theorem Holds.backRes_add (n : Nat) : (p.dataBuffersBackRes + n) % p.bufferPoolSizeGapped =
    (p.dataBuffersFront + (xs.length + n)) % p.bufferPoolSizeGapped := by
  rw [h.backRes_eq, h.back_eq, Nat.mod_add_mod, Nat.add_assoc]

/-- Nothing returned, nothing changed. -/
theorem Holds.afterReturn_nil : p.afterReturn [] = p := by
  have hback : (p.dataBuffersBackRes + 0) % p.bufferPoolSizeGapped = p.dataBuffersBack := by
    rw [h.backRes_add, h.back_eq, Nat.add_zero]
  rw [RecvBufferPool.afterReturn, List.length_nil, hback]
  exact congrArg (fun backRes => { p with dataBuffersBackRes := backRes }) h.backRes_eq.symm

section
variable {ys : List IbMemReg} (hys : xs.length + ys.length ≤ p.bufferPoolSize)

include hys

/-- The overflow check lets a call pass that brings back buffers of the pool. -/
theorem Holds.backRes_add_ne_front (hpos : 0 < ys.length) :
    (p.dataBuffersBackRes + ys.length) % p.bufferPoolSizeGapped ≠ p.dataBuffersFront := by
  have hf := h.front_lt
  have hg : p.bufferPoolSizeGapped = p.bufferPoolSize + 1 := rfl
  rw [h.backRes_add]
  intro hc
  rw [← Nat.mod_eq_of_lt hf] at hc
  rw [Nat.mod_add_mod] at hc
  have := Ring.eq_of_mod_eq (by omega) (by omega) hc.symm
  omega

/-- `ReturnBuffers` appends to a pool that misses at least the returned buffers. -/
theorem Holds.run_returnBuffers {A : Arith} {N : Nat} (hA : A.ExactBelow N)
    (hG : p.bufferPoolSizeGapped < N) (hsum : p.dataBuffersBackRes + ys.length < N) :
    (returnBuffers A ys).run p = .ok () (p.afterReturn ys) := by
  have hg : p.bufferPoolSizeGapped = p.bufferPoolSize + 1 := rfl
  by_cases he : ys = []
  · rw [he, h.afterReturn_nil]
    simp [returnBuffers]
  have hne := h.backRes_add_ne_front hys (List.length_pos_iff.mpr he)
  have hfill := @run_fillSlots A N hA
    { p with dataBuffersBackRes := (p.dataBuffersBackRes + ys.length) % p.bufferPoolSizeGapped }
    hG p.dataBuffersBackRes 0 ys (by omega) (by
      intro j hj
      change p.dataBuffers ((p.dataBuffersBackRes + 0 + j) % p.bufferPoolSizeGapped) = none
      rw [Nat.add_zero, h.backRes_add]
      exact h.free _ (by omega) (by omega)) (by rw [bufferPoolSizeGapped_mk]; omega)
  simp only [bufferPoolSizeGapped_mk, Nat.add_zero] at hfill
  simp only [returnBuffers, if_neg he, EStateM.run_bind, EStateM.run_get, hA.add hsum,
    sizeGapped_eq hA hG, if_neg hne, EStateM.run_set, hfill, EStateM.run_modify]
  rfl

theorem Holds.afterReturn : (p.afterReturn ys).Holds (xs ++ ys) := by
  have hg : p.bufferPoolSizeGapped = p.bufferPoolSize + 1 := rfl
  have hback : p.dataBuffersBackRes % p.bufferPoolSizeGapped =
      (p.dataBuffersFront + xs.length) % p.bufferPoolSizeGapped := h.backRes_add 0
  have happend := h.queue.append ys (by omega)
  rw [← Ring.write_congr (ys.map some) hback] at happend
  refine ⟨h.front_lt, ?_, rfl, ?_, happend.filled, happend.free⟩
  · change (p.dataBuffersBackRes + ys.length) % p.bufferPoolSizeGapped =
      (p.dataBuffersFront + (xs ++ ys).length) % p.bufferPoolSizeGapped
    rw [h.backRes_add, List.length_append]
  · rw [List.length_append]
    exact hys

end

end

/-! ## Single buffers -/

section
variable {A : Arith} {N : Nat} {p : RecvBufferPool} {x : IbMemReg} {xs : List IbMemReg}

theorem Holds.run_getBuffer_nil (h : p.Holds []) : (getBuffer A).run p = .ok none p := by
  simp only [getBuffer, EStateM.run_bind, EStateM.run_get,
    if_pos (h.front_eq_back_iff.mpr rfl), EStateM.run_pure]

theorem Holds.run_getBuffer_cons (h : p.Holds (x :: xs)) (hA : A.ExactBelow N)
    (hG : p.bufferPoolSizeGapped < N) :
    (getBuffer A).run p = .ok (some x) (p.afterGet 1) := by
  have hf := h.front_lt
  have hfirst := h.queue.head_eq
  rw [Nat.mod_eq_of_lt hf] at hfirst
  have hne : ¬ p.dataBuffersFront = p.dataBuffersBack :=
    mt h.front_eq_back_iff.mp (List.cons_ne_nil x xs)
  simp only [getBuffer, EStateM.run_bind, EStateM.run_get, if_neg hne, hfirst,
    EStateM.run_set, EStateM.run_pure, sizeGapped_eq hA hG,
    hA.add (show p.dataBuffersFront + 1 < N by omega)]
  rw [RecvBufferPool.afterGet]
  simp only [List.replicate_one, Ring.write, Nat.mod_eq_of_lt hf]
  rfl

theorem Holds.run_returnBuffer (h : p.Holds xs) (hA : A.ExactBelow N)
    (hG : p.bufferPoolSizeGapped < N) (hlen : xs.length < p.bufferPoolSize) :
    (returnBuffer A x).run p = .ok () (p.afterReturn [x]) := by
  have hback := h.backRes_lt
  have hfree : p.dataBuffers p.dataBuffersBackRes = none := by
    rw [h.backRes_eq, h.back_eq]
    exact h.free _ (Nat.le_refl _) (Nat.lt_succ_of_lt hlen)
  have hne := @Holds.backRes_add_ne_front p xs h [x] hlen Nat.zero_lt_one
  rw [List.length_singleton] at hne
  simp only [returnBuffer, EStateM.run_bind, EStateM.run_get, sizeGapped_eq hA hG,
    hA.add (show p.dataBuffersBackRes + 1 < N by omega), if_neg hne, hfree,
    Option.isSome_none, Bool.false_eq_true, if_false, EStateM.run_set]
  rw [RecvBufferPool.afterReturn]
  simp only [List.map_cons, List.map_nil, Ring.write, Nat.mod_eq_of_lt hback]
  rfl

end

end RecvBufferPool

end Ibdxnet.Dx
