import Ibdxnet.Dx.PoolConservation

/-!
# Batches against single buffers

`GetBuffers` and `ReturnBuffers` compared with as many calls of `GetBuffer` and
`ReturnBuffer`.  A batch of returns is the same thing.  A batch of gets counts
the available buffers before it takes them, and with the back pointer wrapped in
front of the front pointer it subtracts from the number of buffers, not of
slots: it finds one buffer too few, which shows when all of them are asked for.

    GetBuffers(count) is count calls of GetBuffer, or as many as there are buffers
      ↔  the pool is empty, or front ≤ back, or count is below the number of buffers

as long as no position wraps in `uint32_t`, which takes `2 ^ 31` buffers.  A pool
of one buffer that was taken and has come back looks empty to `GetBuffers`
(`one_buffer_short`).
-/

namespace Ibdxnet.Dx

open Sys

namespace RecvBufferPool

/-! ## Algorithm -/

/-- `GetBuffer` until `count` buffers are there or it returns a null pointer. -/
def getBufferRepeated : Nat → EStateM Exception RecvBufferPool (List IbMemReg)
  | 0 => pure []
  | count + 1 => do
    match ← getBuffer .uint32 with
    | none => pure []
    | some buffer =>
      let rest ← getBufferRepeated count
      pure (buffer :: rest)

/-- `ReturnBuffer` for each of `buffers`. -/
def returnBufferEach : List IbMemReg → EStateM Exception RecvBufferPool Unit
  | [] => pure ()
  | buffer :: rest => do
    returnBuffer .uint32 buffer
    returnBufferEach rest

/-- The same buffers in the same order, and the same pool afterwards. -/
def GetAgrees (p : RecvBufferPool) (count : Nat) : Prop :=
  (getBuffers .uint32 count).run p = (getBufferRepeated count).run p

def ReturnAgrees (p : RecvBufferPool) (buffers : List IbMemReg) : Prop :=
  (returnBuffers .uint32 buffers).run p = (returnBufferEach buffers).run p

/-! ## Single calls in a row -/

theorem afterGet_afterGet (p : RecvBufferPool) (j k : Nat) :
    (p.afterGet j).afterGet k = p.afterGet (j + k) := by
  have hwrite := Ring.write_append p.dataBuffers p.bufferPoolSizeGapped p.dataBuffersFront
    (List.replicate j (none : Option IbMemReg)) (List.replicate k none)
  rw [List.length_replicate, List.replicate_append_replicate] at hwrite
  have hstart : Ring.write (Ring.write p.dataBuffers p.bufferPoolSizeGapped p.dataBuffersFront
        (List.replicate j none)) p.bufferPoolSizeGapped
        ((p.dataBuffersFront + j) % p.bufferPoolSizeGapped) (List.replicate k none) =
      Ring.write p.dataBuffers p.bufferPoolSizeGapped p.dataBuffersFront
        (List.replicate (j + k) none) := by
    rw [hwrite]
    exact Ring.write_congr _ (Nat.mod_mod _ _)
  have hfront : ((p.dataBuffersFront + j) % p.bufferPoolSizeGapped + k) % p.bufferPoolSizeGapped =
      (p.dataBuffersFront + (j + k)) % p.bufferPoolSizeGapped := by
    rw [Nat.mod_add_mod, Nat.add_assoc]
  simp only [afterGet, bufferPoolSizeGapped_mk]
  change RecvBufferPool.mk _ _ _ _ _ = RecvBufferPool.mk _ _ _ _ _
  rw [← hstart, ← hfront]
  rfl

theorem afterReturn_afterReturn (p : RecvBufferPool) (xs ys : List IbMemReg) :
    (p.afterReturn xs).afterReturn ys = p.afterReturn (xs ++ ys) := by
  have hwrite := Ring.write_append p.dataBuffers p.bufferPoolSizeGapped p.dataBuffersBackRes
    (xs.map some) (ys.map some)
  rw [List.length_map, ← List.map_append] at hwrite
  have hstart : Ring.write (Ring.write p.dataBuffers p.bufferPoolSizeGapped p.dataBuffersBackRes
        (xs.map some)) p.bufferPoolSizeGapped
        ((p.dataBuffersBackRes + xs.length) % p.bufferPoolSizeGapped) (ys.map some) =
      Ring.write p.dataBuffers p.bufferPoolSizeGapped p.dataBuffersBackRes
        ((xs ++ ys).map some) := by
    rw [hwrite]
    exact Ring.write_congr _ (Nat.mod_mod _ _)
  have hback : ((p.dataBuffersBackRes + xs.length) % p.bufferPoolSizeGapped + ys.length) %
      p.bufferPoolSizeGapped =
      (p.dataBuffersBackRes + (xs ++ ys).length) % p.bufferPoolSizeGapped := by
    rw [Nat.mod_add_mod, Nat.add_assoc, List.length_append]
  simp only [afterReturn, bufferPoolSizeGapped_mk]
  change RecvBufferPool.mk _ _ _ _ _ = RecvBufferPool.mk _ _ _ _ _
  rw [← hstart, ← hback]
  rfl

section
variable {p : RecvBufferPool} {xs : List IbMemReg}

theorem Holds.run_getBufferRepeated (h : p.Holds xs) (hG : p.bufferPoolSizeGapped < 2 ^ 32)
    (count : Nat) :
    (getBufferRepeated count).run p =
      .ok (xs.take count) (p.afterGet (min count xs.length)) := by
  induction count generalizing p xs with
  | zero =>
    rw [Nat.zero_min, h.afterGet_zero]
    rfl
  | succ count ih =>
    cases xs with
    | nil =>
      rw [List.length_nil, Nat.min_zero, h.afterGet_zero]
      simp only [getBufferRepeated, EStateM.run_bind, h.run_getBuffer_nil, List.take_nil,
        EStateM.run_pure]
    | cons x xs =>
      have hrest := ih (h.afterGet (k := 1) (by simp)) hG
      simp only [getBufferRepeated, EStateM.run_bind,
        h.run_getBuffer_cons Arith.uint32_exactBelow hG]
      rw [hrest, afterGet_afterGet]
      simp only [EStateM.run_pure, List.drop_succ_cons, List.drop_zero, List.take_succ_cons,
        List.length_cons]
      congr 2
      omega

theorem Holds.run_returnBufferEach (h : p.Holds xs) (hG : p.bufferPoolSizeGapped < 2 ^ 32)
    {ys : List IbMemReg} (hys : xs.length + ys.length ≤ p.bufferPoolSize) :
    (returnBufferEach ys).run p = .ok () (p.afterReturn ys) := by
  induction ys generalizing p xs with
  | nil =>
    rw [h.afterReturn_nil]
    rfl
  | cons y ys ih =>
    rw [List.length_cons] at hys
    have hone : xs.length + [y].length ≤ p.bufferPoolSize := by
      rw [List.length_singleton]
      omega
    have hrest := ih (h.afterReturn hone) hG (by
      rw [List.length_append, List.length_singleton]
      change xs.length + 1 + ys.length ≤ p.bufferPoolSize
      omega)
    rw [afterReturn_afterReturn] at hrest
    simp only [returnBufferEach, EStateM.run_bind,
      h.run_returnBuffer Arith.uint32_exactBelow hG (x := y) hone]
    exact hrest

end

/-! ## Batches -/

theorem length_takeSlots {front i k : Nat} {p q : RecvBufferPool} {bs : List IbMemReg}
    (h : (takeSlots .uint32 front i k).run p = .ok bs q) : bs.length = k := by
  induction k generalizing i p q bs with
  | zero =>
    simp only [takeSlots, EStateM.run_pure, EStateM.Result.ok.injEq] at h
    rw [← h.1, List.length_nil]
  | succ k ih =>
    simp only [takeSlots, EStateM.run_bind, EStateM.run_get] at h
    cases hslot : p.dataBuffers (Arith.uint32.add front i % p.sizeGapped .uint32) with
    | none =>
      rw [hslot] at h
      simp only [Exec.run_throw, reduceCtorEq] at h
    | some buffer =>
      simp only [hslot] at h
      obtain ⟨_, _, -, h⟩ := Exec.run_bind_eq_ok.mp h
      obtain ⟨rest, t, hrest, hpure⟩ := Exec.run_bind_eq_ok.mp h
      simp only [EStateM.run_pure, EStateM.Result.ok.injEq] at hpure
      rw [← hpure.1, List.length_cons, ih hrest]

/-- What a batch that does not throw returns and where it leaves the front. -/
theorem getBuffers_ok {p q : RecvBufferPool} {count : Nat} {bs : List IbMemReg}
    (hcount : count ≠ 0) (hne : p.dataBuffersFront ≠ p.dataBuffersBack)
    (h : (getBuffers .uint32 count).run p = .ok bs q) :
    bs.length = min (p.available .uint32) count ∧
      q.dataBuffersFront =
        Arith.uint32.add p.dataBuffersFront (min (p.available .uint32) count) %
          p.sizeGapped .uint32 := by
  simp only [getBuffers, if_neg hcount, EStateM.run_bind, EStateM.run_get, if_neg hne] at h
  cases htake :
      (takeSlots .uint32 p.dataBuffersFront 0 (min (p.available .uint32) count)).run p with
  | error e t =>
    rw [htake] at h
    cases h
  | ok taken t =>
    rw [htake] at h
    simp only [EStateM.run_modify, EStateM.run_pure, EStateM.Result.ok.injEq] at h
    obtain ⟨rfl, rfl⟩ := h
    exact ⟨length_takeSlots htake, rfl⟩

section
variable {p : RecvBufferPool} {xs : List IbMemReg} (h : p.Holds xs)
  (hG : p.bufferPoolSizeGapped < 2 ^ 32)

include h hG

/-- A batch whose last position wraps in `uint32_t` leaves the front elsewhere. -/
theorem Holds.not_getAgrees {count : Nat}
    (hwrap : 2 ^ 32 ≤ p.dataBuffersFront + p.numBuffers count xs) : ¬ p.GetAgrees count := by
  intro hagree
  have hf := h.front_lt
  have hl := h.length_le
  have hg : p.bufferPoolSizeGapped = p.bufferPoolSize + 1 := rfl
  have hk := h.numBuffers_le count
  have hne : xs ≠ [] := by
    rintro rfl
    rw [numBuffers, if_pos rfl] at hwrap
    omega
  have hnum : p.numBuffers count xs = min (p.available .exact) count := if_neg hne
  have hcount : count ≠ 0 := by
    rintro rfl
    rw [hnum, Nat.min_zero] at hwrap
    omega
  rw [GetAgrees, h.run_getBufferRepeated hG] at hagree
  obtain ⟨hlen, hfront⟩ := getBuffers_ok hcount (mt h.front_eq_back_iff.mp hne) hagree
  rw [h.available_congr Arith.uint32_exactBelow hG, ← hnum] at hlen hfront
  rw [List.length_take] at hlen
  -- both sides took as many buffers, but one side counts in `2 ^ 32` first
  have hbatch : Arith.uint32.add p.dataBuffersFront (p.numBuffers count xs) % p.sizeGapped .uint32 =
      p.dataBuffersFront + p.numBuffers count xs - 2 ^ 32 := by
    rw [Arith.uint32_add_of_le hwrap (by omega), sizeGapped_eq Arith.uint32_exactBelow hG,
      Nat.mod_eq_of_lt (by omega)]
  have hsingle : (p.dataBuffersFront + min count xs.length) % p.bufferPoolSizeGapped =
      p.dataBuffersFront + p.numBuffers count xs - p.bufferPoolSizeGapped := by
    rw [hlen, Nat.mod_eq_sub_mod (by omega), Nat.mod_eq_of_lt (by omega)]
  rw [hbatch] at hfront
  change (p.dataBuffersFront + min count xs.length) % p.bufferPoolSizeGapped = _ at hfront
  omega

/-- **A batch of gets against single gets.** -/
theorem Holds.getAgrees_iff (count : Nat) :
    p.GetAgrees count ↔
      xs = [] ∨ p.dataBuffersFront ≤ p.dataBuffersBack ∨
        count < xs.length ∧ p.dataBuffersFront + count < 2 ^ 32 := by
  have hf := h.front_lt
  have hl := h.length_le
  have hg : p.bufferPoolSizeGapped = p.bufferPoolSize + 1 := rfl
  have hk := h.numBuffers_le count
  have havail := h.available_eq
  -- a front that is not behind the back leaves no room for a wrap
  have hstraight : p.dataBuffersFront ≤ p.dataBuffersBack →
      p.dataBuffersFront + xs.length < 2 ^ 32 := by
    intro hle
    have hb := h.back_eq
    have hmod := Nat.mod_eq_of_lt hf
    rcases Ring.add_mod_cases p.dataBuffersFront (show xs.length < p.bufferPoolSizeGapped by omega)
      with ⟨h1, _⟩ | ⟨h1, _⟩
    · omega
    · omega
  have hnum : p.numBuffers count xs = if xs = [] then 0 else min (p.available .exact) count := rfl
  rcases Nat.lt_or_ge (p.dataBuffersFront + p.numBuffers count xs) (2 ^ 32) with hsum | hwrap
  · rw [GetAgrees, h.run_getBuffers Arith.uint32_exactBelow hG hsum, h.run_getBufferRepeated hG]
    have heq : p.numBuffers count xs = min count xs.length ↔
        xs = [] ∨ p.dataBuffersFront ≤ p.dataBuffersBack ∨
          count < xs.length ∧ p.dataBuffersFront + count < 2 ^ 32 := by
      rcases List.eq_nil_or_concat xs with rfl | ⟨ys, y, hxs⟩
      · simp [numBuffers]
      · have hne : xs ≠ [] := by simp [hxs]
        have hpos : 0 < xs.length := List.length_pos_iff.mpr hne
        rw [if_neg hne] at hnum
        simp only [hne, false_or]
        split at havail <;> omega
    rw [← heq]
    constructor
    · intro hagree
      have hlen := congrArg List.length (EStateM.Result.ok.inj hagree).1
      simp only [List.length_take] at hlen
      omega
    · intro hnum'
      have htake : xs.take (min count xs.length) = xs.take count := by
        rw [← List.take_take, List.take_length]
      rw [hnum', htake]
  · refine iff_of_false (h.not_getAgrees hG hwrap) ?_
    rintro (rfl | hle | ⟨hlt, hsum⟩)
    · rw [if_pos rfl] at hnum
      omega
    · have := hstraight hle
      omega
    · have hne : xs ≠ [] := by
        rintro rfl
        simp at hlt
      rw [if_neg hne] at hnum
      omega

/-- **A batch of returns against single returns.** -/
theorem Holds.returnAgrees_iff {ys : List IbMemReg}
    (hys : xs.length + ys.length ≤ p.bufferPoolSize) :
    p.ReturnAgrees ys ↔ p.dataBuffersBackRes + ys.length < 2 ^ 32 := by
  have hg : p.bufferPoolSizeGapped = p.bufferPoolSize + 1 := rfl
  have hback := h.backRes_lt
  rw [ReturnAgrees, h.run_returnBufferEach hG hys]
  rcases Nat.lt_or_ge (p.dataBuffersBackRes + ys.length) (2 ^ 32) with hsum | hwrap
  · exact iff_of_true (h.run_returnBuffers hys Arith.uint32_exactBelow hG hsum) hsum
  · refine iff_of_false (fun hagree => ?_) (Nat.not_lt.mpr hwrap)
    have hne : ys ≠ [] := by
      rintro rfl
      rw [List.length_nil] at hwrap
      omega
    have hbatch : Arith.uint32.add p.dataBuffersBackRes ys.length % p.sizeGapped .uint32 =
        p.dataBuffersBackRes + ys.length - 2 ^ 32 := by
      rw [Arith.uint32_add_of_le hwrap (by omega), sizeGapped_eq Arith.uint32_exactBelow hG,
      Nat.mod_eq_of_lt (by omega)]
    have hsingle : (p.dataBuffersBackRes + ys.length) % p.bufferPoolSizeGapped =
        p.dataBuffersBackRes + ys.length - p.bufferPoolSizeGapped := by
      rw [Nat.mod_eq_sub_mod (by omega), Nat.mod_eq_of_lt (by omega)]
    by_cases hfull :
        Arith.uint32.add p.dataBuffersBackRes ys.length % p.sizeGapped .uint32 = p.dataBuffersFront
    · simp only [returnBuffers, if_neg hne, EStateM.run_bind, EStateM.run_get, if_pos hfull,
        Exec.run_throw, reduceCtorEq] at hagree
    · have hfinal := (PoolUse.final_returnBuffers hne hfull).2.2
      rw [hagree, hbatch] at hfinal
      change (p.dataBuffersBackRes + ys.length) % p.bufferPoolSizeGapped = _ at hfinal
      omega

end

end RecvBufferPool

/-! ## Main result -/

namespace PoolUse

open RecvBufferPool

/-- **Batches and single calls, in every state a run reaches.** -/
theorem batch_iff {n : Nat} (hn : n + 1 < 2 ^ 32) {calls : List Call} {u : PoolUse}
    (h : Lts.exec step (init n) calls = some u) (hwords : Lts.Along step InWords (init n) calls) :
    (∀ count, u.pool.GetAgrees count ↔
      u.bag.free = [] ∨ u.pool.dataBuffersFront ≤ u.pool.dataBuffersBack ∨
        count < u.bag.free.length ∧ u.pool.dataBuffersFront + count < 2 ^ 32) ∧
    (∀ count, u.pool.GetAgrees count →
      ∃ p, (getBuffers .uint32 count).run u.pool = .ok (u.bag.free.take count) p) ∧
    ∀ buffers : List IbMemReg, buffers.Subperm u.bag.held →
      (u.pool.ReturnAgrees buffers ↔ u.pool.dataBuffersBackRes + buffers.length < 2 ^ 32) := by
  have hu := valid_of_inWords hn hwords h
  have hG := hu.gapped_lt hn
  refine ⟨hu.holds.getAgrees_iff hG, fun count hagree => ?_, fun buffers hout => ?_⟩
  · exact ⟨_, hagree.trans (hu.holds.run_getBufferRepeated hG count)⟩
  · exact hu.holds.returnAgrees_iff hG (hu.room hout)

/-- A pool of two buffers that were both taken and came back. -/
theorem batch_iff_two :
    ∃ u, Lts.exec step (init 2) [.getBuffers 2, .returnBuffer 1, .returnBuffers [0]] = some u ∧
      u.pool.dataBuffersBack < u.pool.dataBuffersFront ∧ u.bag.free.length = 2 ∧
      u.pool.GetAgrees 1 ∧ ¬ u.pool.GetAgrees 2 := by
  have hrun : ∃ u, Lts.exec step (init 2)
      [.getBuffers 2, .returnBuffer 1, .returnBuffers [0]] = some u ∧ u.bag.free = [1, 0] ∧
        u.pool.dataBuffersFront = 2 ∧ u.pool.dataBuffersBack = 1 := ⟨_, rfl, rfl, rfl, rfl⟩
  obtain ⟨u, hexec, hfree, hfront, hback⟩ := hrun
  have hget := (batch_iff (by decide) hexec (inWords_of_lt (by decide) hexec)).1
  rw [hfree, hfront, hback] at hget
  refine ⟨u, hexec, by rw [hfront, hback]; decide, by rw [hfree]; rfl, ?_, ?_⟩
  · exact (hget 1).mpr (by decide)
  · exact mt (hget 2).mp (by decide)

/-- A pool of one buffer that was taken and has come back: `GetBuffer` finds it,
`GetBuffers` does not. -/
theorem one_buffer_short :
    ∃ u p q, Lts.exec step (init 1) [.getBuffer, .returnBuffer 0] = some u ∧
      (getBuffers .uint32 1).run u.pool = .ok [] p ∧ (getBufferRepeated 1).run u.pool = .ok [0] q ∧
      ¬ u.pool.GetAgrees 1 := by
  have hrun : ∃ u p q, Lts.exec step (init 1) [.getBuffer, .returnBuffer 0] = some u ∧
      (getBuffers .uint32 1).run u.pool = .ok [] p ∧ (getBufferRepeated 1).run u.pool = .ok [0] q :=
    ⟨_, _, _, rfl, rfl, rfl⟩
  obtain ⟨u, p, q, hexec, hbatch, hsingle⟩ := hrun
  refine ⟨u, p, q, hexec, hbatch, hsingle, fun hagree => ?_⟩
  rw [GetAgrees, hbatch, hsingle] at hagree
  cases hagree

end PoolUse

end Ibdxnet.Dx
