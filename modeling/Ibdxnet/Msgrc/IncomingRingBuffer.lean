import Ibdxnet.Dx.RecvBufferPool

/-!
# The incoming ring buffer

`IncomingRingBuffer`: the receive dispatcher fills the entry `Back()` points
to and makes it visible with `PushBack`, the receive handler reads the entries
from `m_front` on and `PopFront` drops those it has processed.

    pushEntry e  on  es  leaves  es ++ [e]          (Holds.run_pushEntry)
    popFront n   on  es  leaves  es.drop n          (Holds.run_popFront)

Its counters are natural numbers: `m_size` is the product of two `uint16_t` taken as
an `int`, so below 2^31, and no sum formed exceeds twice `m_size`.
-/

namespace Ibdxnet.Msgrc

open Ibdxnet.Con Sys Dx

/-- `IncomingRingBuffer::RingBuffer::Entry` -/
structure Entry where
  sourceNodeId : NodeId
  fcData : UInt8
  padding : UInt8
  dataLength : Nat
  data : Option IbMemReg
  dataRaw : Nat
  deriving DecidableEq, Repr

/-- An entry after the constructor's `memset`. -/
def Entry.init : Entry where
  sourceNodeId := 0
  fcData := 0
  padding := 0
  dataLength := 0
  data := none
  dataRaw := 0

structure IncomingRingBuffer where
  usedEntries : Nat
  front : Nat
  back : Nat
  size : Nat
  entries : Nat → Entry

namespace IncomingRingBuffer

/-! ## Algorithm -/

def init (size : Nat) : IncomingRingBuffer where
  usedEntries := 0
  front := 0
  back := 0
  size := size
  entries _ := .init

def isEmpty (r : IncomingRingBuffer) : Bool := r.usedEntries == 0

/-- `NumFreeEntries` -/
def numFreeEntries (r : IncomingRingBuffer) : Nat := r.size - r.usedEntries

/-- The first `count` entries as a reader of `GetRingBuffer()` finds them:
`m_entries[(m_front + i) % m_size]`. -/
def read (r : IncomingRingBuffer) (count : Nat) : List Entry :=
  Ring.window r.entries r.size r.front count

/-- `PopFront` -/
def popFront (count : Nat) : EStateM Exception IncomingRingBuffer Unit := do
  let r ← get
  if count > r.usedEntries then
    throw (.illegalState "IRB underflow, count %d: %s")
  else
    set { r with
      usedEntries := r.usedEntries - count
      front := (r.front + count) % r.size }

/-- `PushBack`, which counts the entry before it checks for an overflow. -/
def pushBack : EStateM Exception IncomingRingBuffer Unit := do
  modify fun r => { r with usedEntries := r.usedEntries + 1 }
  let r ← get
  if r.usedEntries > r.size then
    throw (.illegalState "IRB overflow: %s")
  else
    set { r with back := (r.back + 1) % r.size }

/-- Fill the entry at `Back()`, then `PushBack()`. -/
def pushEntry (entry : Entry) : EStateM Exception IncomingRingBuffer Unit := do
  modify fun r => { r with entries := Function.update r.entries r.back entry }
  pushBack

/-! ## The ring buffer as a FIFO queue -/

/-- The live entries are `es`, the one at the front first. -/
structure Holds (r : IncomingRingBuffer) (es : List Entry) : Prop where
  usedEntries_eq : r.usedEntries = es.length
  length_le : es.length ≤ r.size
  front_lt : 0 < r.size → r.front < r.size
  back_eq : 0 < r.size → r.back = (r.front + es.length) % r.size
  filled : r.read es.length = es

theorem init_holds (size : Nat) : (init size).Holds [] where
  usedEntries_eq := rfl
  length_le := Nat.zero_le _
  front_lt h := h
  back_eq _ := by simp [init]
  filled := rfl

namespace Holds

variable {r : IncomingRingBuffer} {es : List Entry}

theorem isEmpty_iff (h : r.Holds es) : r.isEmpty = true ↔ es = [] := by
  rw [isEmpty, beq_iff_eq, h.usedEntries_eq, List.length_eq_zero_iff]

/-- A reader of some of the live entries reads the oldest ones. -/
theorem read_eq (h : r.Holds es) {count : Nat} (hcount : count ≤ es.length) :
    r.read count = es.take count := by
  have hfilled := h.filled
  rw [read] at hfilled ⊢
  rw [← Ring.take_window r.entries r.size r.front hcount, hfilled]

theorem run_popFront (h : r.Holds es) {count : Nat} (hcount : count ≤ es.length) :
    ∃ q, (popFront count).run r = .ok () q ∧ q.Holds (es.drop count) ∧ q.size = r.size := by
  have hle := h.length_le
  refine ⟨{ r with
    usedEntries := r.usedEntries - count
    front := (r.front + count) % r.size }, ?_, ⟨?_, ?_, ?_, ?_, ?_⟩, rfl⟩
  · have hused : ¬ count > r.usedEntries := by rw [h.usedEntries_eq]; omega
    simp only [popFront, EStateM.run_bind, EStateM.run_get, if_neg hused, EStateM.run_set]
  · simp only [List.length_drop, h.usedEntries_eq]
  · simp only [List.length_drop]
    omega
  · intro hpos
    exact Nat.mod_lt _ hpos
  · intro hpos
    simp only [List.length_drop, Nat.mod_add_mod]
    rw [h.back_eq hpos]
    congr 1
    omega
  · have hfilled := h.filled
    rw [read] at hfilled ⊢
    simp only [List.length_drop, Ring.window_mod]
    rw [← Ring.drop_window _ _ _ hcount, hfilled]

theorem run_pushEntry (h : r.Holds es) (hlen : es.length < r.size) (e : Entry) :
    ∃ q, (pushEntry e).run r = .ok () q ∧ q.Holds (es ++ [e]) ∧ q.size = r.size := by
  have hpos : 0 < r.size := by omega
  refine ⟨{ r with
    usedEntries := r.usedEntries + 1
    back := (r.back + 1) % r.size
    entries := Function.update r.entries r.back e }, ?_, ⟨?_, ?_, h.front_lt, ?_, ?_⟩, rfl⟩
  · have hused : ¬ r.usedEntries + 1 > r.size := by rw [h.usedEntries_eq]; omega
    simp only [pushEntry, pushBack, EStateM.run_bind, EStateM.run_modify, EStateM.run_get,
      if_neg hused, EStateM.run_set]
  · simp [h.usedEntries_eq]
  · simp only [List.length_append, List.length_singleton]
    omega
  · intro _
    simp only [List.length_append, List.length_singleton]
    rw [h.back_eq hpos, Nat.mod_add_mod, Nat.add_assoc]
  · have hfilled := h.filled
    rw [read] at hfilled ⊢
    simp only [List.length_append, List.length_singleton]
    rw [h.back_eq hpos, Ring.window_push _ _ _ _ hlen, hfilled]

end Holds

end IncomingRingBuffer

end Ibdxnet.Msgrc
