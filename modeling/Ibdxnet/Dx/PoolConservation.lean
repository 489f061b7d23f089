import Ibdxnet.Lib.FifoBag
import Ibdxnet.Dx.RecvBufferPool

/-!
# Buffers are conserved

The pool in the hands of one thread.  `PoolUse` keeps, next to the pool, the bag
it stands for: the buffers in the pool in the order they came back, and those
handed out, as the calls really returned them.  After every run of calls in
which a buffer is returned only while it is out, the slots from front to back
hold the first list and every buffer is in exactly one of the two.

This takes sums of two positions that fit into `uint32_t`.  The last slot is
number `n`, so they do up to `2 ^ 31 - 1` buffers, and a pool of more loses
buffers when all are taken and returned at once:

    conserved along every run  ↔  n < 2 ^ 31            (conserved_iff)
-/

namespace Ibdxnet.Dx

open Sys RecvBufferPool

/-- A pool used by one thread. -/
structure PoolUse where
  pool : RecvBufferPool
  /-- the buffers in the pool, first returned first, and the buffers handed out -/
  bag : FifoBag IbMemReg
  thrown : Bool

namespace PoolUse

inductive Call where
  | getBuffer
  | getBuffers (count : Nat)
  | returnBuffer (buffer : IbMemReg)
  | returnBuffers (buffers : List IbMemReg)
  deriving DecidableEq, Repr

/-- The constructor. -/
def init (bufferPoolSize : Nat) : PoolUse where
  pool := .init bufferPoolSize
  bag := .ofList (List.range bufferPoolSize)
  thrown := false

/-- After a call that hands out buffers. -/
def handOut (u : PoolUse) : EStateM.Result Exception RecvBufferPool (List IbMemReg) → PoolUse
  | .ok buffers pool =>
    { u with pool, bag := ⟨u.bag.free.drop buffers.length, u.bag.held ++ buffers⟩ }
  | .error _ pool => { u with pool, thrown := true }

/-- After a call that takes `buffers` back. -/
def takeBack (u : PoolUse) (buffers : List IbMemReg) :
    EStateM.Result Exception RecvBufferPool Unit → PoolUse
  | .ok () pool => { u with pool, bag := u.bag.put buffers }
  | .error _ pool => { u with pool, thrown := true }

theorem pool_takeBack (u : PoolUse) (buffers : List IbMemReg)
    (r : EStateM.Result Exception RecvBufferPool Unit) :
    (u.takeBack buffers r).pool = Exec.final r := by
  cases r <;> rfl

/-- One call; only buffers that are out are returned, each once, and a run ends
with the first throw. -/
def step (u : PoolUse) (call : Call) : Option PoolUse :=
  if u.thrown then none
  else
    match call with
    | .getBuffer => some (u.handOut ((Option.toList <$> getBuffer .uint32).run u.pool))
    | .getBuffers count => some (u.handOut ((getBuffers .uint32 count).run u.pool))
    | .returnBuffer buffer =>
      if [buffer].Subperm u.bag.held then
        some (u.takeBack [buffer] ((returnBuffer .uint32 buffer).run u.pool))
      else none
    | .returnBuffers buffers =>
      if buffers.Subperm u.bag.held then
        some (u.takeBack buffers ((returnBuffers .uint32 buffers).run u.pool))
      else none

/-- The pool of `n` buffers has lost none and doubled none. -/
structure Conserved (n : Nat) (u : PoolUse) : Prop where
  /-- there is a slot for every buffer and the gap -/
  gap : n < u.pool.sizeGapped .uint32
  noThrow : u.thrown = false
  /-- the slots from front to back hold the buffers in the order of their return,
  the other slots are null, and nothing is reserved -/
  slots : u.pool.Holds u.bag.free
  nodup : u.bag.free.Nodup
  all : u.bag.objects.Perm (List.range n)

/-- The last position the call forms fits into a `uint32_t`. -/
def InWords (u : PoolUse) : Call → Prop
  | .getBuffers count =>
    u.pool.dataBuffersFront + u.pool.numBuffers count u.bag.free < 2 ^ 32
  | .returnBuffers buffers => u.pool.dataBuffersBackRes + buffers.length < 2 ^ 32
  | .getBuffer | .returnBuffer _ => True

/-! ## One call -/

/-- What every call keeps. -/
structure Valid (n : Nat) (u : PoolUse) : Prop where
  size : u.pool.bufferPoolSize = n
  thrown : u.thrown = false
  holds : u.pool.Holds u.bag.free
  all : u.bag.objects.Perm (List.range n)

theorem valid_init (n : Nat) : (init n).Valid n where
  size := rfl
  thrown := rfl
  holds := init_holds n
  all := by rw [init, FifoBag.objects_ofList]

section
variable {n : Nat} {u u' : PoolUse} (hu : u.Valid n)

include hu

theorem Valid.length_add : u.bag.free.length + u.bag.held.length = n := by
  have hlen := FifoBag.length_free_add_held hu.all
  rwa [List.length_range] at hlen

theorem Valid.gapped_eq : u.pool.bufferPoolSizeGapped = n + 1 := by
  rw [bufferPoolSizeGapped, hu.size]

theorem Valid.gapped_lt (hn : n + 1 < 2 ^ 32) : u.pool.bufferPoolSizeGapped < 2 ^ 32 := by
  rw [hu.gapped_eq]
  exact hn

theorem Valid.front_le : u.pool.dataBuffersFront ≤ n := by
  have hf := hu.holds.front_lt
  rw [hu.gapped_eq] at hf
  exact Nat.le_of_lt_succ hf

theorem Valid.backRes_le : u.pool.dataBuffersBackRes ≤ n := by
  have hb := hu.holds.backRes_lt
  rw [hu.gapped_eq] at hb
  exact Nat.le_of_lt_succ hb

/-- Buffers that are out fit back into the pool. -/
theorem Valid.room {buffers : List IbMemReg} (hout : buffers.Subperm u.bag.held) :
    u.bag.free.length + buffers.length ≤ u.pool.bufferPoolSize := by
  have hlen := hout.length_le
  have hsum := hu.length_add
  rw [hu.size]
  omega

/-- The first `k` buffers are handed out. -/
theorem Valid.handOut {k : Nat} (hk : k ≤ u.bag.free.length) :
    (u.handOut (.ok (u.bag.free.take k) (u.pool.afterGet k))).Valid n := by
  have hbag : (⟨u.bag.free.drop (u.bag.free.take k).length, u.bag.held ++ u.bag.free.take k⟩ :
      FifoBag IbMemReg) = u.bag.take k := by
    rw [List.length_take, Nat.min_eq_left hk]
    rfl
  simp only [PoolUse.handOut, hbag]
  exact ⟨hu.size, hu.thrown, hu.holds.afterGet hk, (u.bag.objects_take_perm k).trans hu.all⟩

/-- Buffers that are out come back to the end. -/
theorem Valid.takeBack {buffers : List IbMemReg} (hout : buffers.Subperm u.bag.held) :
    (u.takeBack buffers (.ok () (u.pool.afterReturn buffers))).Valid n where
  size := hu.size
  thrown := hu.thrown
  holds := hu.holds.afterReturn (hu.room hout)
  all := (FifoBag.objects_put_perm hout).trans hu.all

/-- Each call whose positions fit keeps the pool valid. -/
theorem Valid.step (hn : n + 1 < 2 ^ 32) {call : Call} (hwords : u.InWords call)
    (h : u.step call = some u') : u'.Valid n := by
  have hG := hu.gapped_lt hn
  simp only [PoolUse.step, hu.thrown, Bool.false_eq_true, if_false] at h
  cases call with
  | getBuffer =>
    obtain rfl := Option.some.inj h
    cases hfree : u.bag.free with
    | nil =>
      have hrun := @Holds.run_getBuffer_nil .uint32 u.pool (hfree ▸ hu.holds)
      have hnone := hu.handOut (Nat.zero_le _)
      rw [hu.holds.afterGet_zero, List.take_zero] at hnone
      simpa only [Exec.run_map, hrun, Option.toList_none] using hnone
    | cons x xs =>
      have hrun := (hfree ▸ hu.holds).run_getBuffer_cons Arith.uint32_exactBelow hG
      have hone := hu.handOut (k := 1) (by rw [hfree]; simp)
      rw [hfree] at hone
      simpa only [Exec.run_map, hrun, Option.toList_some, List.take_succ_cons, List.take_zero]
        using hone
  | getBuffers count =>
    obtain rfl := Option.some.inj h
    rw [hu.holds.run_getBuffers Arith.uint32_exactBelow hG hwords]
    exact hu.handOut (hu.holds.numBuffers_le count)
  | returnBuffer buffer =>
    simp only [Option.ite_none_right_eq_some, Option.some.injEq] at h
    obtain ⟨hout, rfl⟩ := h
    rw [hu.holds.run_returnBuffer Arith.uint32_exactBelow hG (hu.room hout)]
    exact hu.takeBack hout
  | returnBuffers buffers =>
    simp only [Option.ite_none_right_eq_some, Option.some.injEq] at h
    obtain ⟨hout, rfl⟩ := h
    rw [hu.holds.run_returnBuffers (hu.room hout) Arith.uint32_exactBelow hG hwords]
    exact hu.takeBack hout

/-- Below `2 ^ 31` buffers every position fits. -/
theorem Valid.inWords (hn : n < 2 ^ 31) {call : Call} (h : u.step call = some u') :
    u.InWords call := by
  have hsum := hu.length_add
  have hfront := hu.front_le
  have hback := hu.backRes_le
  simp only [PoolUse.step, hu.thrown, Bool.false_eq_true, if_false] at h
  cases call with
  | getBuffer => trivial
  | returnBuffer buffer => trivial
  | getBuffers count =>
    have hnum := hu.holds.numBuffers_le count
    rw [InWords]
    omega
  | returnBuffers buffers =>
    simp only [Option.ite_none_right_eq_some, Option.some.injEq] at h
    have hlen := h.1.length_le
    rw [InWords]
    omega

theorem Valid.conserved (hn : n + 1 < 2 ^ 32) : u.Conserved n where
  gap := by
    rw [sizeGapped_eq Arith.uint32_exactBelow (hu.gapped_lt hn), hu.gapped_eq]
    exact Nat.lt_succ_self n
  noThrow := hu.thrown
  slots := hu.holds
  nodup := (List.nodup_append.mp (hu.all.nodup_iff.mpr List.nodup_range)).1
  all := hu.all

end

/-! ## Runs -/

/-- **A run whose positions all fit keeps the pool valid.** -/
theorem valid_of_inWords {n : Nat} (hn : n + 1 < 2 ^ 32) {calls : List Call} {u : PoolUse}
    (hwords : Lts.Along step InWords (init n) calls) (h : Lts.exec step (init n) calls = some u) :
    u.Valid n :=
  Lts.exec_invariant_along (I := Valid n) (fun _ _ _ hs hw hstep => hs.step hn hw hstep)
    (valid_init n) hwords h

/-- Below `2 ^ 31` buffers no position wraps in any run. -/
theorem inWords_of_lt {n : Nat} (hn : n < 2 ^ 31) {calls : List Call} {u : PoolUse}
    (h : Lts.exec step (init n) calls = some u) : Lts.Along step InWords (init n) calls :=
  Lts.along_of_exec (I := Valid n) (fun _ _ _ hs hstep => hs.inWords hn hstep)
    (fun _ _ _ hs hstep => hs.step (by omega) (hs.inWords hn hstep) hstep) (valid_init n) h

/-! ## All buffers returned at once -/

/-- The loop of `ReturnBuffers` writes slots only. -/
theorem final_fillSlots (backRes i : Nat) (buffers : List IbMemReg) (p : RecvBufferPool) :
    let q := Exec.final ((fillSlots .uint32 backRes i buffers).run p)
    q.bufferPoolSize = p.bufferPoolSize ∧ q.dataBuffersFront = p.dataBuffersFront ∧
      q.dataBuffersBackRes = p.dataBuffersBackRes := by
  induction buffers generalizing i p with
  | nil => exact ⟨rfl, rfl, rfl⟩
  | cons buffer rest ih =>
    simp only [fillSlots, EStateM.run_bind, EStateM.run_get]
    split
    · exact ⟨rfl, rfl, rfl⟩
    · exact ih (i + 1) _

/-- `ReturnBuffers` leaves the front alone and, past the overflow check, moves the
reserved back pointer. -/
theorem final_returnBuffers {buffers : List IbMemReg} {p : RecvBufferPool} (hne : buffers ≠ [])
    (hnext : Arith.uint32.add p.dataBuffersBackRes buffers.length % p.sizeGapped .uint32 ≠
      p.dataBuffersFront) :
    let q := Exec.final ((returnBuffers .uint32 buffers).run p)
    q.bufferPoolSize = p.bufferPoolSize ∧ q.dataBuffersFront = p.dataBuffersFront ∧
      q.dataBuffersBackRes =
        Arith.uint32.add p.dataBuffersBackRes buffers.length % p.sizeGapped .uint32 := by
  have hfill := final_fillSlots p.dataBuffersBackRes 0 buffers
    { p with
      dataBuffersBackRes :=
        Arith.uint32.add p.dataBuffersBackRes buffers.length % p.sizeGapped .uint32 }
  simp only [returnBuffers, if_neg hne, EStateM.run_bind, EStateM.run_get, if_neg hnext,
    EStateM.run_set]
  cases hrun : (fillSlots .uint32 p.dataBuffersBackRes 0 buffers).run _ with
  | ok _ q =>
    rw [hrun] at hfill
    exact hfill
  | error e q =>
    rw [hrun] at hfill
    exact hfill

/-- A new pool hands out all buffers at once; front and back are then at the gap. -/
theorem step_getBuffers_all {n : Nat} (hn : n + 1 < 2 ^ 32) :
    ∃ p, (init n).step (.getBuffers n) = some ⟨p, ⟨[], List.range n⟩, false⟩ ∧
      p.bufferPoolSize = n ∧ p.dataBuffersFront = n ∧ p.dataBuffersBackRes = n := by
  have hinit := init_holds n
  have hnum : (RecvBufferPool.init n).numBuffers n (List.range n) = n := by
    by_cases hzero : n = 0
    · rw [hzero]
      rfl
    · have hne : List.range n ≠ [] := mt List.range_eq_nil.mp hzero
      have hback :
          (RecvBufferPool.init n).dataBuffersFront ≤ (RecvBufferPool.init n).dataBuffersBack :=
        Nat.zero_le n
      rw [numBuffers, if_neg hne, hinit.available_eq, if_pos hback, List.length_range,
        Nat.min_self]
  have hsum : (RecvBufferPool.init n).dataBuffersFront +
      (RecvBufferPool.init n).numBuffers n (List.range n) < 2 ^ 32 := by
    rw [hnum]
    change 0 + n < 2 ^ 32
    omega
  have hget := hinit.run_getBuffers Arith.uint32_exactBelow hn hsum
  have htake : (List.range n).take n = List.range n := List.take_of_length_le (by simp)
  rw [hnum, htake] at hget
  refine ⟨(RecvBufferPool.init n).afterGet n, ?_, rfl, ?_, rfl⟩
  · change some ((init n).handOut ((getBuffers .uint32 n).run (RecvBufferPool.init n))) = _
    rw [hget, handOut]
    simp [init, FifoBag.ofList]
  · change (0 + n) % (n + 1) = n
    rw [Nat.zero_add, Nat.mod_eq_of_lt (Nat.lt_succ_self n)]

/-- With the front at the gap and all buffers in the pool, the reserved back pointer
has to be on the slot before the gap. -/
theorem Conserved.backRes_eq {n : Nat} {u : PoolUse} (hc : u.Conserved n) (hpos : 0 < n)
    (hsize : u.pool.bufferPoolSize = n) (hfront : u.pool.dataBuffersFront = n)
    (hlen : u.bag.free.length = n) : u.pool.dataBuffersBackRes = n - 1 := by
  rw [hc.slots.backRes_eq, hc.slots.back_eq, bufferPoolSizeGapped, hsize, hfront, hlen,
    show n + n = n - 1 + (n + 1) by omega, Nat.add_mod_right, Nat.mod_eq_of_lt (by omega)]

/-- From `2 ^ 31` buffers on, the position behind all of them wraps. -/
theorem not_conserved {n : Nat} (hn : 2 ^ 31 ≤ n) (hn' : n + 1 < 2 ^ 32) :
    ∃ u, Lts.exec step (init n) [.getBuffers n, .returnBuffers (List.range n)] = some u ∧
      u.pool.dataBuffersFront = n ∧ u.pool.dataBuffersBackRes = n + n - 2 ^ 32 ∧
      ¬ u.Conserved n := by
  obtain ⟨p, hfirst, hsize, hfront, hbackRes⟩ := step_getBuffers_all hn'
  have hne : List.range n ≠ [] := mt List.range_eq_nil.mp (by omega)
  -- the position behind all buffers is one lap of `uint32_t` too low
  have hnext : Arith.uint32.add p.dataBuffersBackRes (List.range n).length % p.sizeGapped .uint32 =
      n + n - 2 ^ 32 := by
    rw [hbackRes, List.length_range, Arith.uint32_add_of_le (by omega) (by omega), sizeGapped,
      hsize, Arith.uint32_exactBelow.add hn', Nat.mod_eq_of_lt (by omega)]
  obtain ⟨hqsize, hqfront, hqback⟩ := final_returnBuffers hne (by rw [hnext, hfront]; omega)
  rw [hnext] at hqback
  rw [hfront] at hqfront
  rw [hsize] at hqsize
  have hsecond : PoolUse.step ⟨p, ⟨[], List.range n⟩, false⟩ (.returnBuffers (List.range n)) =
      some (PoolUse.takeBack ⟨p, ⟨[], List.range n⟩, false⟩ (List.range n)
        ((returnBuffers .uint32 (List.range n)).run p)) := if_pos (List.Subperm.refl _)
  refine ⟨_, Lts.exec_cons_eq_some.mpr ⟨_, hfirst, Lts.exec_cons_eq_some.mpr
    ⟨_, hsecond, Lts.exec_nil _⟩⟩, ?_, ?_, fun hc => ?_⟩
  · rw [pool_takeBack]
    exact hqfront
  · rw [pool_takeBack]
    exact hqback
  -- the call did not throw, so all buffers count as returned
  cases hreturn : (returnBuffers .uint32 (List.range n)).run p with
  | error e q =>
    have hthrow := hc.noThrow
    rw [hreturn] at hthrow
    cases hthrow
  | ok _ q =>
    rw [hreturn] at hc hqsize hqfront hqback
    have hback := hc.backRes_eq (by omega) hqsize hqfront List.length_range
    have hlow : n - 1 = n + n - 2 ^ 32 := hback.symm.trans hqback
    omega

/-! ## Main result -/

/-- **Buffers are conserved exactly below `2 ^ 31` of them.** -/
theorem conserved_iff (n : Nat) :
    (∀ calls u, Lts.exec step (init n) calls = some u → u.Conserved n) ↔ n < 2 ^ 31 := by
  constructor
  · intro h
    by_contra hn
    by_cases hn' : n + 1 < 2 ^ 32
    · obtain ⟨u, hrun, -, -, hu⟩ := not_conserved (Nat.not_lt.mp hn) hn'
      exact hu (h _ u hrun)
    · -- the number of slots does not even fit into a `uint32_t`
      have hgap := (h [] (init n) rfl).gap
      have hlt : (init n).pool.sizeGapped .uint32 < 2 ^ 32 := Nat.mod_lt _ (Nat.two_pow_pos 32)
      have hmod : (init n).pool.sizeGapped .uint32 = (n + 1) % 2 ^ 32 := rfl
      omega
  · intro hn calls u hrun
    exact (valid_of_inWords (by omega) (inWords_of_lt hn hrun) hrun).conserved (by omega)

/-- A pool of `2 ^ 31` buffers, all of them taken and returned at once: the
reserved back pointer comes to slot 0, not to the slot before the front. -/
theorem buffers_lost :
    ∃ u, Lts.exec step (init (2 ^ 31))
        [.getBuffers (2 ^ 31), .returnBuffers (List.range (2 ^ 31))] = some u ∧
      u.pool.dataBuffersFront = 2 ^ 31 ∧ u.pool.dataBuffersBackRes = 0 ∧
      ¬ u.Conserved (2 ^ 31) :=
  not_conserved (Nat.le_refl _) (by decide)

end PoolUse

end Ibdxnet.Dx
