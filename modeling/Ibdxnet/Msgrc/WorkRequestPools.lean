import Ibdxnet.Lib.FifoBag
import Ibdxnet.Msgrc.RecvWorkRequestPool
import Ibdxnet.Msgrc.SendWorkRequestCtxPool

/-!
# Both work request pools are one queue

`SendWorkRequestCtxPool` tells a full from an empty ring by a counter,
`RecvWorkRequestPool` by a slot it keeps free.  Over every sequence of calls in
which only objects that are out are pushed, both answer like a bag that hands out
its objects in turn (`FifoBag`):

    replies of the pool  =  replies of the bag             (IsFifo.run_eq)
    Pop throws           ↔  all objects are held           (pools_refine_bag)

Below `2 ^ 32 - 1` objects, where `m_poolSizeGapped` would be 0, no position of a pool
leaves `uint32_t`: the largest is `m_front + 1`, at most `m_poolSizeGapped`.  The
dispatchers create the pools with a 16 bit queue size or twice such a size.
-/

namespace Ibdxnet.Msgrc

open Sys

/-! ## The receive pool with its counter -/

/-- `RecvWorkRequestPool` together with `m_nonReturnedBuffers`, an `int64_t`. -/
structure CountedRecvPool where
  pool : RecvWorkRequestPool
  nonReturnedBuffers : Int

namespace CountedRecvPool

def init (numWorkRequests : Nat) : CountedRecvPool where
  pool := .init numWorkRequests
  nonReturnedBuffers := 0

/-- Run an operation on the pool alone. -/
def onPool {α : Type} (x : EStateM Exception RecvWorkRequestPool α) :
    EStateM Exception CountedRecvPool α :=
  Exec.zoom pool (fun c pool => { c with pool }) x

/-- `Pop` -/
def pop : EStateM Exception CountedRecvPool Nat := do
  let tmp ← onPool RecvWorkRequestPool.pop
  modify fun c => { c with nonReturnedBuffers := c.nonReturnedBuffers + 1 }
  pure tmp

/-- `Push` -/
def push (refWorkRequest : Nat) : EStateM Exception CountedRecvPool Unit := do
  onPool (RecvWorkRequestPool.push refWorkRequest)
  modify fun c => { c with nonReturnedBuffers := c.nonReturnedBuffers - 1 }

end CountedRecvPool

/-! ## Calls of a pool -/

/-- The interface of a pool of work requests. -/
structure WorkRequestPool (σ : Type) where
  pop : EStateM Exception σ Nat
  push : Nat → EStateM Exception σ Unit
  nonReturnedBuffers : σ → Int

def sendPool : WorkRequestPool SendWorkRequestCtxPool where
  pop := SendWorkRequestCtxPool.pop
  push := SendWorkRequestCtxPool.push
  nonReturnedBuffers p := p.nonReturnedBuffers

def recvPool : WorkRequestPool CountedRecvPool where
  pop := CountedRecvPool.pop
  push := CountedRecvPool.push
  nonReturnedBuffers := CountedRecvPool.nonReturnedBuffers

inductive PoolCall where
  | pop
  | push (refWorkRequest : Nat)
  deriving DecidableEq, Repr

/-- What the caller sees of a call. -/
inductive PoolReply where
  | threw
  | popped (tmp : Nat)
  | pushed
  deriving DecidableEq, Repr

namespace WorkRequestPool

variable {σ : Type} (P : WorkRequestPool σ)

/-- The reply of a call and the pool after it; the pool stays in use after a throw. -/
def call (s : σ) : PoolCall → PoolReply × σ
  | .pop =>
    match P.pop.run s with
    | .ok tmp t => (.popped tmp, t)
    | .error _ t => (.threw, t)
  | .push c =>
    match (P.push c).run s with
    | .ok () t => (.pushed, t)
    | .error _ t => (.threw, t)

def run (s : σ) : List PoolCall → List PoolReply × σ
  | [] => ([], s)
  | c :: cs =>
    let rest := run (P.call s c).2 cs
    ((P.call s c).1 :: rest.1, rest.2)

end WorkRequestPool

/-! ## The bag both pools stand for -/

namespace PoolCall

/-- The operation on the bag. -/
def bagOp : PoolCall → FifoBag.Op Nat
  | .pop => .take 1
  | .push c => .put [c]

/-- The reply of the bag: a pop of the empty bag throws. -/
def bagReply (b : FifoBag Nat) : PoolCall → PoolReply
  | .pop =>
    match b.free with
    | [] => .threw
    | tmp :: _ => .popped tmp
  | .push _ => .pushed

def bagStep (b : FifoBag Nat) (c : PoolCall) : Option (FifoBag Nat) := b.step c.bagOp

def bagReplies : FifoBag Nat → List PoolCall → List PoolReply
  | _, [] => []
  | b, c :: cs =>
    match bagStep b c with
    | some b' => c.bagReply b :: bagReplies b' cs
    | none => []

end PoolCall

/-- The objects a list of replies hands out. -/
def PoolReply.object : PoolReply → Option Nat
  | .popped tmp => some tmp
  | .threw | .pushed => none

/-- The object a call puts back. -/
def PoolCall.object : PoolCall → Option Nat
  | .pop => none
  | .push c => some c

/-- After the calls `cs` the pool `P`, created as `s₀` with `n` objects, is what
the bag `b` says it is. -/
structure WorkRequestPool.BehavesAs {σ : Type} (P : WorkRequestPool σ) (s₀ : σ) (n : Nat)
    (cs : List PoolCall) (b : FifoBag Nat) : Prop where
  /-- so far every call was answered as the bag answers it -/
  replies : (P.run s₀ cs).1 = PoolCall.bagReplies (.ofList (List.range n)) cs
  /-- objects leave in the order in which they were created or put back -/
  inTurn : (P.run s₀ cs).1.filterMap PoolReply.object ++ b.free =
    List.range n ++ cs.filterMap PoolCall.object
  pop_throws : (P.call (P.run s₀ cs).2 .pop).1 = .threw ↔ b.held.length = n
  pop_popped : b.held.length ≠ n → ∃ tmp, (P.call (P.run s₀ cs).2 .pop).1 = .popped tmp ∧
    b.free.head? = some tmp ∧ tmp < n ∧ tmp ∉ b.held
  push_pushed : ∀ c ∈ b.held, (P.call (P.run s₀ cs).2 (.push c)).1 = .pushed
  nonReturned : P.nonReturnedBuffers (P.run s₀ cs).2 = b.held.length

/-! ## Lemmas -/

/-- `Rep s xs` says that the pool `s` of `n` objects holds `xs`, and the
operations are those of a queue. -/
structure WorkRequestPool.IsFifo {σ : Type} (P : WorkRequestPool σ) (n : Nat)
    (Rep : σ → List Nat → Prop) : Prop where
  pop_nil : ∀ s, Rep s [] → ∃ e, P.pop.run s = .error e s
  pop_cons : ∀ s x xs, Rep s (x :: xs) → ∃ t, P.pop.run s = .ok x t ∧ Rep t xs
  push : ∀ s xs c, Rep s xs → xs.length < n → ∃ t, (P.push c).run s = .ok () t ∧ Rep t (xs ++ [c])
  count : ∀ s xs, Rep s xs → P.nonReturnedBuffers s + xs.length = n

theorem sendPool_isFifo (n : Nat) :
    sendPool.IsFifo n (fun p xs => p.Holds xs ∧ p.poolSize = n) where
  pop_nil p h := ⟨_, h.1.run_pop_nil⟩
  pop_cons p x xs h := by
    obtain ⟨q, hrun, hq, hsize⟩ := h.1.run_pop
    exact ⟨q, hrun, hq, hsize.trans h.2⟩
  push p xs c h hlen := by
    obtain ⟨q, hrun, hq, hsize⟩ := h.1.run_push (h.2 ▸ hlen) c
    exact ⟨q, hrun, hq, hsize.trans h.2⟩
  count p xs h := by
    have hcount := h.1.length_add
    rw [h.2] at hcount
    change (p.nonReturnedBuffers : Int) + xs.length = n
    omega

theorem recvPool_isFifo (n : Nat) :
    recvPool.IsFifo n (fun c xs => c.pool.Holds xs ∧ c.pool.poolSize = n ∧
      c.nonReturnedBuffers + xs.length = n) where
  pop_nil c h := by
    refine ⟨.poolIllegalState "Pool ran dry, m_front %d, m_back %d", ?_⟩
    change CountedRecvPool.pop.run c = _
    simp only [CountedRecvPool.pop, CountedRecvPool.onPool, EStateM.run_bind, Exec.run_zoom,
      h.1.run_pop_nil]
  pop_cons c x xs h := by
    obtain ⟨hholds, hsize, hcount⟩ := h
    obtain ⟨q, hrun, hq, hqsize⟩ := hholds.run_pop
    refine ⟨⟨q, c.nonReturnedBuffers + 1⟩, ?_, hq, hqsize.trans hsize, ?_⟩
    · change CountedRecvPool.pop.run c = _
      simp only [CountedRecvPool.pop, CountedRecvPool.onPool, EStateM.run_bind, Exec.run_zoom,
        hrun, EStateM.run_modify, EStateM.run_pure]
    · rw [List.length_cons] at hcount
      simp only
      omega
  push c xs tmp h hlen := by
    obtain ⟨hholds, hsize, hcount⟩ := h
    obtain ⟨q, hrun, hq, hqsize⟩ := hholds.run_push (hsize ▸ hlen) tmp
    refine ⟨⟨q, c.nonReturnedBuffers - 1⟩, ?_, hq, hqsize.trans hsize, ?_⟩
    · change (CountedRecvPool.push tmp).run c = _
      simp only [CountedRecvPool.push, CountedRecvPool.onPool, EStateM.run_bind, Exec.run_zoom,
        hrun, EStateM.run_modify]
    · simp only [List.length_append, List.length_singleton]
      omega
  count c xs h := h.2.2

namespace WorkRequestPool.IsFifo

variable {σ : Type} {P : WorkRequestPool σ} {n : Nat} {Rep : σ → List Nat → Prop}
  {b b' : FifoBag Nat} {s : σ}

/-- One call is answered as the bag answers it. -/
theorem call_eq (hP : P.IsFifo n Rep) (hs : Rep s b.free) (hb : b.objects.Perm (List.range n))
    {c : PoolCall} (h : PoolCall.bagStep b c = some b') :
    (P.call s c).1 = c.bagReply b ∧ Rep (P.call s c).2 b'.free := by
  obtain ⟨free, held⟩ := b
  cases c with
  | pop =>
    obtain rfl : FifoBag.take ⟨free, held⟩ 1 = b' := Option.some.inj h
    cases free with
    | nil =>
      obtain ⟨e, hrun⟩ := hP.pop_nil s hs
      rw [call, hrun]
      exact ⟨rfl, hs⟩
    | cons x xs =>
      obtain ⟨t, hrun, ht⟩ := hP.pop_cons s x xs hs
      rw [call, hrun]
      exact ⟨rfl, ht⟩
  | push c =>
    simp only [PoolCall.bagStep, PoolCall.bagOp, FifoBag.step, Option.ite_none_right_eq_some,
      Option.some.injEq] at h
    obtain ⟨hc, rfl⟩ := h
    -- an object is out, so the pool is not full
    have hheld : 0 < held.length := List.length_pos_of_mem (List.singleton_subperm_iff.mp hc)
    have hlen := FifoBag.length_free_add_held hb
    rw [List.length_range] at hlen
    obtain ⟨t, hrun, ht⟩ := hP.push s free c hs (by simp only at hlen; omega)
    rw [call, hrun]
    exact ⟨rfl, ht⟩

/-- Every run is answered as the bag answers it. -/
theorem run_eq (hP : P.IsFifo n Rep) {cs : List PoolCall} (hs : Rep s b.free)
    (hb : b.objects.Perm (List.range n)) (h : Lts.exec PoolCall.bagStep b cs = some b') :
    (P.run s cs).1 = PoolCall.bagReplies b cs ∧ Rep (P.run s cs).2 b'.free := by
  induction cs generalizing s b with
  | nil =>
    obtain rfl : b = b' := Option.some.inj h
    exact ⟨rfl, hs⟩
  | cons c cs ih =>
    obtain ⟨b₁, hstep, hrest⟩ := Lts.exec_cons_eq_some.mp h
    obtain ⟨hreply, hrep⟩ := hP.call_eq hs hb hstep
    obtain ⟨hreplies, hfinal⟩ := ih hrep ((FifoBag.objects_step_perm hstep).trans hb) hrest
    refine ⟨?_, hfinal⟩
    rw [run, PoolCall.bagReplies, hstep, hreply, hreplies]

end WorkRequestPool.IsFifo

/-- The objects the bag's replies hand out. -/
theorem PoolCall.filterMap_bagReplies {b b' : FifoBag Nat} {cs : List PoolCall}
    (h : Lts.exec bagStep b cs = some b') :
    (bagReplies b cs).filterMap PoolReply.object = FifoBag.taken b (cs.map bagOp) := by
  induction cs generalizing b with
  | nil => rfl
  | cons c cs ih =>
    obtain ⟨b₁, hstep, hrest⟩ := Lts.exec_cons_eq_some.mp h
    have hstep' : b.step c.bagOp = some b₁ := hstep
    rw [bagReplies, hstep, List.map_cons, FifoBag.taken, hstep']
    change List.filterMap PoolReply.object (c.bagReply b :: bagReplies b₁ cs) =
      b.handedOut c.bagOp ++ FifoBag.taken b₁ (cs.map bagOp)
    rw [← ih hrest]
    obtain ⟨free, held⟩ := b
    cases c with
    | pop => cases free <;> rfl
    | push c => rfl

theorem PoolCall.flatMap_returned (cs : List PoolCall) :
    (cs.map bagOp).flatMap FifoBag.Op.returned = cs.filterMap PoolCall.object := by
  induction cs with
  | nil => rfl
  | cons c cs ih =>
    rw [List.map_cons, List.flatMap_cons, ih]
    cases c <;> rfl

/-- A queue of `n` objects behaves as the bag over every run. -/
theorem WorkRequestPool.IsFifo.behavesAs {σ : Type} {P : WorkRequestPool σ} {n : Nat}
    {Rep : σ → List Nat → Prop} (hP : P.IsFifo n Rep) {s₀ : σ} (hs₀ : Rep s₀ (List.range n))
    {cs : List PoolCall} {b : FifoBag Nat}
    (h : Lts.exec PoolCall.bagStep (.ofList (List.range n)) cs = some b) :
    P.BehavesAs s₀ n cs b := by
  have hexec : Lts.exec FifoBag.step (.ofList (List.range n)) (cs.map PoolCall.bagOp) = some b := by
    rw [← Lts.exec_comp PoolCall.bagOp]
    exact h
  obtain ⟨hreplies, hrep⟩ := hP.run_eq (b := .ofList (List.range n)) hs₀
    (by rw [FifoBag.objects_ofList]) h
  have hperm : b.objects.Perm (List.range n) := by
    simpa only [FifoBag.objects_ofList] using FifoBag.objects_exec_perm hexec
  have hlen := FifoBag.length_free_add_held hperm
  rw [List.length_range] at hlen
  have hpop := hP.call_eq (c := .pop) hrep hperm rfl
  have hinTurn := FifoBag.taken_append_free hexec
  rw [← PoolCall.filterMap_bagReplies h, PoolCall.flatMap_returned, ← hreplies] at hinTurn
  obtain ⟨free, held⟩ := b
  refine ⟨hreplies, hinTurn, ?_, ?_, ?_, ?_⟩
  · rw [hpop.1]
    cases free with
    | nil => simpa [PoolCall.bagReply] using hlen
    | cons x xs =>
      simp only [List.length_cons] at hlen
      simp only [PoolCall.bagReply, reduceCtorEq, false_iff]
      omega
  · intro hheld
    cases free with
    | nil => exact absurd (by simpa using hlen) hheld
    | cons x xs =>
      refine ⟨x, hpop.1, rfl, ?_, ?_⟩
      · exact List.mem_range.mp (FifoBag.mem_of_mem_free hperm List.mem_cons_self)
      · exact FifoBag.not_mem_held hperm List.nodup_range List.mem_cons_self
  · intro c hc
    exact (hP.call_eq (c := .push c) hrep hperm
      (if_pos (List.singleton_subperm_iff.mpr hc))).1
  · have hcount := hP.count _ _ hrep
    simp only at hcount hlen ⊢
    omega

/-! ## Main result -/

/-- **Both pools are the same queue.**  Whatever is popped, and whatever object
that is out is pushed, in any order: both pools answer every call as the bag of
the `numWorkRequests` objects does. -/
theorem pools_refine_bag (numWorkRequests : Nat) (cs : List PoolCall) (b : FifoBag Nat)
    (h : Lts.exec PoolCall.bagStep (.ofList (List.range numWorkRequests)) cs = some b) :
    sendPool.BehavesAs (.init numWorkRequests) numWorkRequests cs b ∧
      recvPool.BehavesAs (.init numWorkRequests) numWorkRequests cs b := by
  constructor
  · exact (sendPool_isFifo numWorkRequests).behavesAs
      ⟨SendWorkRequestCtxPool.init_holds numWorkRequests, rfl⟩ h
  · refine (recvPool_isFifo numWorkRequests).behavesAs
      ⟨RecvWorkRequestPool.init_holds numWorkRequests, rfl, ?_⟩ h
    simp [CountedRecvPool.init]

/-- A pool of two objects that runs dry, refuses a pop and gets both objects back
in the other order. -/
theorem pools_refine_bag_two :
    let cs := [.pop, .pop, .pop, .push 1, .push 0, .pop]
    ∃ b, Lts.exec PoolCall.bagStep (.ofList (List.range 2)) cs = some b ∧
      sendPool.BehavesAs (.init 2) 2 cs b ∧ recvPool.BehavesAs (.init 2) 2 cs b :=
  ⟨⟨[0], [1]⟩, by decide, pools_refine_bag 2 _ _ (by decide)⟩

end Ibdxnet.Msgrc
