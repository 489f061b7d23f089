import Ibdxnet.Core.IbProtDom
import Ibdxnet.Dx.PoolConservation
import Mathlib.Data.Set.Lattice
import Mathlib.Order.CompletePartialOrder

/-!
# The memory of the receive buffers

The constructor of the pool allocates and registers one region and cuts it into
`m_bufferPoolSize` buffers.  Buffer `i` is the bytes from `i * m_bufferSize` to
the next one:

    |---- 0 ----|---- 1 ----|  ...  |-- n - 1 --|     m_memoryPool

No byte is left over and none is in two buffers, so buffers that are out at the
same time share none                                       (buffers_disjoint)
-/

namespace Ibdxnet.Dx

open Ibdxnet.Core (IbProtDom IbvMr)

/-- `m_bufferPoolSize`, `m_bufferSize`, `m_memoryPool` and `m_bufferPool` -/
structure BufferMemory where
  bufferPoolSize : UInt32
  bufferSize : UInt32
  memoryPool : Core.IbMemReg
  bufferPool : List Core.IbMemReg

namespace BufferMemory

/-! ## The constructor -/

/-- The loop that cuts the region: `k` buffers from number `i` on. -/
def slice (memoryPool : Core.IbMemReg) (recvBufferSize : UInt32) :
    UInt32 → Nat → Except Core.Failure (List Core.IbMemReg)
  | _, 0 => pure []
  | i, k + 1 => do
    let buffer ← Core.IbMemReg.ofParent
      (memoryPool.addr + i.toUInt64 * recvBufferSize.toUInt64) recvBufferSize.toUInt64 memoryPool
    let rest ← slice memoryPool recvBufferSize (i + 1) k
    pure (buffer :: rest)

/-- `alignedAlloc` is the address `aligned_alloc` returns.  A buffer size of 0
ends the process at the division, here at the assertion on the region's size. -/
def new (totalPoolSize : UInt64) (recvBufferSize : UInt32) (protDom : IbProtDom)
    (alignedAlloc : UInt64) (regMr : Option IbvMr) :
    Except Core.Failure (BufferMemory × IbProtDom) := do
  let bufferPoolSize := (totalPoolSize / recvBufferSize.toUInt64).toUInt32
  let memoryPool ← Core.IbMemReg.new alignedAlloc
    (bufferPoolSize.toUInt64 * recvBufferSize.toUInt64) true
  let (protDom, memoryPool) ← protDom.register memoryPool regMr
  let bufferPool ← slice memoryPool recvBufferSize 0 bufferPoolSize.toNat
  pure ({ bufferPoolSize, bufferSize := recvBufferSize, memoryPool, bufferPool }, protDom)

/-- The addresses of buffer `i`. -/
def bytes (b : BufferMemory) (i : IbMemReg) : Set ℕ :=
  {a | ∃ buffer, b.bufferPool[i]? = some buffer ∧ a ∈ buffer.bytes}

/-! ## What is cut -/

/-- Buffer `i` of a region. -/
def buffer (memoryPool : Core.IbMemReg) (recvBufferSize : UInt32) (i : Nat) : Core.IbMemReg where
  addr := memoryPool.addr + UInt64.ofNat i * recvBufferSize.toUInt64
  size := recvBufferSize.toUInt64
  freeOnCleanup := false
  ibMemReg := memoryPool.ibMemReg

variable {memoryPool : Core.IbMemReg} {recvBufferSize : UInt32} {i j k : Nat}
  {buffers : List Core.IbMemReg}

theorem toUInt64_ofNat (hi : i < 2 ^ 32) : (UInt32.ofNat i).toUInt64 = UInt64.ofNat i := by
  apply UInt64.toNat_inj.mp
  rw [UInt32.toNat_toUInt64, UInt32.toNat_ofNat_of_lt' hi, UInt64.toNat_ofNat_of_lt' (by
    show i < 2 ^ 64
    omega)]

theorem eq_of_ofParent {addr size : UInt64} {first : Core.IbMemReg}
    (h : Core.IbMemReg.ofParent addr size memoryPool = .ok first) : size < 0x7FFFFFFF ∧
      first = { addr, size, freeOnCleanup := false, ibMemReg := memoryPool.ibMemReg } := by
  unfold Core.IbMemReg.ofParent at h
  split at h
  · cases h
  · split at h
    · cases h
    · next hsize => exact ⟨UInt64.not_le.mp hsize, (Except.ok.inj h).symm⟩

theorem slice_eq_ok (hik : i + k ≤ 2 ^ 32)
    (h : slice memoryPool recvBufferSize (UInt32.ofNat i) k = .ok buffers) :
    buffers = (List.range' i k).map (buffer memoryPool recvBufferSize) := by
  induction k generalizing i buffers with
  | zero =>
    obtain rfl := Except.ok.inj h
    rfl
  | succ k ih =>
    unfold slice at h
    obtain ⟨first, hfirst, h⟩ := Exec.bind_eq_ok.mp h
    obtain ⟨rest, hrest, h⟩ := Exec.bind_eq_ok.mp h
    obtain rfl := Except.ok.inj h
    rw [toUInt64_ofNat (by omega)] at hfirst
    have hnext : UInt32.ofNat i + 1 = UInt32.ofNat (i + 1) := (UInt32.ofNat_add i 1).symm
    rw [hnext] at hrest
    rw [List.range'_succ, List.map_cons, ← ih (by omega) hrest, (eq_of_ofParent hfirst).2]
    rfl

/-- What the constructor leaves when it returns. -/
theorem new_eq_ok {totalPoolSize : UInt64} {protDom protDom' : IbProtDom} {alignedAlloc : UInt64}
    {regMr : Option IbvMr} {b : BufferMemory}
    (h : new totalPoolSize recvBufferSize protDom alignedAlloc regMr = .ok (b, protDom')) :
    b.bufferPoolSize = (totalPoolSize / recvBufferSize.toUInt64).toUInt32 ∧
      b.memoryPool.addr = alignedAlloc ∧
      b.memoryPool.size.toNat = b.bufferPoolSize.toNat * recvBufferSize.toNat ∧
      b.memoryPool.ibMemReg = regMr ∧ regMr ≠ none ∧
      b.bufferPool = (List.range b.bufferPoolSize.toNat).map
        (buffer b.memoryPool recvBufferSize) ∧
      protDom' = { memoryRegionsRegistered := protDom.memoryRegionsRegistered + 1
                   totalMemRegistered := protDom.totalMemRegistered + b.memoryPool.size } := by
  unfold new at h
  obtain ⟨memoryPool, hpool, h⟩ := Exec.bind_eq_ok.mp h
  obtain ⟨⟨protDom₁, memoryPool₁⟩, hregister, h⟩ := Exec.bind_eq_ok.mp h
  obtain ⟨bufferPool, hslice, h⟩ := Exec.bind_eq_ok.mp h
  obtain ⟨rfl, rfl⟩ := Prod.mk.inj (Except.ok.inj h)
  obtain ⟨hsize, haddr, mr, rfl, rfl, rfl⟩ := Core.IbProtDom.register_eq_ok hregister
  unfold Core.IbMemReg.new at hpool
  split at hpool
  · cases hpool
  · obtain rfl := Except.ok.inj hpool
    refine ⟨rfl, rfl, ?_, rfl, nofun, ?_, rfl⟩
    · show ((totalPoolSize / recvBufferSize.toUInt64).toUInt32.toUInt64 *
        recvBufferSize.toUInt64).toNat = _
      rw [UInt64.toNat_mul, UInt32.toNat_toUInt64, UInt32.toNat_toUInt64]
      exact Nat.mod_eq_of_lt (lt_of_lt_of_le (Nat.mul_lt_mul'' (UInt32.toNat_lt _)
        (UInt32.toNat_lt _)) (by decide))
    · rw [List.range_eq_range']
      refine slice_eq_ok ?_ hslice
      show 0 + (totalPoolSize / recvBufferSize.toUInt64).toUInt32.toNat ≤ 2 ^ 32
      have hlt := (totalPoolSize / recvBufferSize.toUInt64).toUInt32.toNat_lt
      omega

/-! ## No byte is left over or in two buffers -/

section
variable {b : BufferMemory} {n : Nat}
  (hfits : b.memoryPool.addr.toNat + n * recvBufferSize.toNat ≤ 2 ^ 64)

include hfits

theorem addr_buffer (hi : i < n) (hpos : 0 < recvBufferSize.toNat) :
    (buffer b.memoryPool recvBufferSize i).addr.toNat =
      b.memoryPool.addr.toNat + i * recvBufferSize.toNat := by
  have hmul : (i + 1) * recvBufferSize.toNat ≤ n * recvBufferSize.toNat :=
    Nat.mul_le_mul_right _ hi
  rw [Nat.add_mul, Nat.one_mul] at hmul
  have hlt : i < 2 ^ 64 := by
    have hle := Nat.le_mul_of_pos_right i hpos
    omega
  show (b.memoryPool.addr + UInt64.ofNat i * recvBufferSize.toUInt64).toNat = _
  rw [UInt64.toNat_add, UInt64.toNat_mul, UInt64.toNat_ofNat_of_lt' hlt, UInt32.toNat_toUInt64,
    Nat.mod_eq_of_lt (show i * recvBufferSize.toNat < 2 ^ 64 by omega),
    Nat.mod_eq_of_lt (by omega)]

variable (hpool : b.bufferPool = (List.range n).map (buffer b.memoryPool recvBufferSize))

include hpool

theorem mem_bytes_iff {a : Nat} : a ∈ b.bytes i ↔ i < n ∧
    b.memoryPool.addr.toNat + i * recvBufferSize.toNat ≤ a ∧
      a < b.memoryPool.addr.toNat + i * recvBufferSize.toNat + recvBufferSize.toNat := by
  have hget : ∀ r, b.bufferPool[i]? = some r ↔
      i < n ∧ buffer b.memoryPool recvBufferSize i = r := by
    intro r
    rw [hpool, List.getElem?_map, Option.map_eq_some_iff]
    constructor
    · rintro ⟨k, hk, rfl⟩
      obtain ⟨hlt, rfl⟩ := List.getElem?_eq_some_iff.mp hk
      rw [List.length_range] at hlt
      rw [List.getElem_range]
      exact ⟨hlt, rfl⟩
    · rintro ⟨hi, rfl⟩
      exact ⟨i, List.getElem?_range hi, rfl⟩
  constructor
  · rintro ⟨r, hr, hmem⟩
    obtain ⟨hi, rfl⟩ := (hget r).mp hr
    obtain ⟨hlow, hhigh⟩ := hmem
    have hsize : (buffer b.memoryPool recvBufferSize i).size.toNat = recvBufferSize.toNat :=
      UInt32.toNat_toUInt64 _
    rw [hsize] at hhigh
    have hpos : 0 < recvBufferSize.toNat := by omega
    rw [addr_buffer hfits hi hpos] at hlow hhigh
    exact ⟨hi, hlow, hhigh⟩
  · rintro ⟨hi, hlow, hhigh⟩
    refine ⟨_, (hget _).mpr ⟨hi, rfl⟩, ?_⟩
    have hsize : (buffer b.memoryPool recvBufferSize i).size.toNat = recvBufferSize.toNat :=
      UInt32.toNat_toUInt64 _
    unfold Core.IbMemReg.bytes
    rw [hsize, addr_buffer hfits hi (by omega)]
    exact ⟨hlow, hhigh⟩

theorem disjoint_bytes (hij : i ≠ j) : Disjoint (b.bytes i) (b.bytes j) := by
  rw [Set.disjoint_left]
  intro a hi hj
  obtain ⟨-, hilow, hihigh⟩ := (mem_bytes_iff hfits hpool).mp hi
  obtain ⟨-, hjlow, hjhigh⟩ := (mem_bytes_iff hfits hpool).mp hj
  -- the buffer a byte is in is its distance from the start divided by the buffer size
  have hdiv : ∀ k, b.memoryPool.addr.toNat + k * recvBufferSize.toNat ≤ a →
      a < b.memoryPool.addr.toNat + k * recvBufferSize.toNat + recvBufferSize.toNat →
      (a - b.memoryPool.addr.toNat) / recvBufferSize.toNat = k := by
    intro k hlow hhigh
    apply Nat.div_eq_of_lt_le
    · omega
    · rw [Nat.add_mul]
      omega
  exact hij ((hdiv i hilow hihigh).symm.trans (hdiv j hjlow hjhigh))

theorem mem_memoryPool_iff (hsize : b.memoryPool.size.toNat = n * recvBufferSize.toNat) {a : Nat} :
    a ∈ b.memoryPool.bytes ↔ ∃ i < n, a ∈ b.bytes i := by
  constructor
  · rintro ⟨hlow, hhigh⟩
    rw [hsize] at hhigh
    have hlt : a - b.memoryPool.addr.toNat < n * recvBufferSize.toNat := by omega
    have hpos : 0 < recvBufferSize.toNat := by
      apply Nat.pos_of_ne_zero
      intro hzero
      rw [hzero, Nat.mul_zero] at hlt
      omega
    have hi : (a - b.memoryPool.addr.toNat) / recvBufferSize.toNat < n :=
      Nat.div_lt_of_lt_mul (by rwa [Nat.mul_comm])
    have hdiv := Nat.div_add_mod' (a - b.memoryPool.addr.toNat) recvBufferSize.toNat
    have hmod := Nat.mod_lt (a - b.memoryPool.addr.toNat) hpos
    exact ⟨_, hi, (mem_bytes_iff hfits hpool).mpr ⟨hi, by omega, by omega⟩⟩
  · rintro ⟨i, hi, hmem⟩
    obtain ⟨-, hlow, hhigh⟩ := (mem_bytes_iff hfits hpool).mp hmem
    have hmul : (i + 1) * recvBufferSize.toNat ≤ n * recvBufferSize.toNat :=
      Nat.mul_le_mul_right _ hi
    rw [Nat.add_mul, Nat.one_mul] at hmul
    refine ⟨by omega, ?_⟩
    rw [hsize]
    omega

end

/-! ## Main result -/

/-- **The buffers of a pool share no byte, whoever has them**: after every run of
calls the buffers in the pool and those handed out are together the registered
region, and no two of them overlap.

The region does not reach over the end of the address space. -/
theorem buffers_disjoint {totalPoolSize : UInt64} {protDom protDom' : IbProtDom}
    {alignedAlloc : UInt64} {regMr : Option IbvMr} {b : BufferMemory}
    (hnew : new totalPoolSize recvBufferSize protDom alignedAlloc regMr = .ok (b, protDom'))
    (hfits : alignedAlloc.toNat + b.memoryPool.size.toNat ≤ 2 ^ 64)
    (hwords : b.bufferPoolSize.toNat < 2 ^ 31) {calls : List PoolUse.Call} {u : PoolUse}
    (hrun : Lts.exec PoolUse.step (PoolUse.init b.bufferPoolSize.toNat) calls = some u) :
    (u.bag.free ++ u.bag.held).Pairwise (fun i j => Disjoint (b.bytes i) (b.bytes j)) ∧
      (∀ a, a ∈ b.memoryPool.bytes ↔ ∃ i ∈ u.bag.free ++ u.bag.held, a ∈ b.bytes i) ∧
      ∀ r ∈ b.bufferPool, r.ibMemReg = regMr ∧ r.size.toNat = recvBufferSize.toNat := by
  obtain ⟨-, haddr, hsize, hkeys, -, hpool, -⟩ := new_eq_ok hnew
  rw [hsize, ← haddr] at hfits
  have hvalid := PoolUse.valid_of_inWords (by omega) (PoolUse.inWords_of_lt hwords hrun) hrun
  have hall : (u.bag.free ++ u.bag.held).Perm (List.range b.bufferPoolSize.toNat) := hvalid.all
  refine ⟨?_, ?_, ?_⟩
  · have hnodup : (u.bag.free ++ u.bag.held).Nodup := hall.nodup_iff.mpr List.nodup_range
    exact List.Pairwise.imp (fun hij => disjoint_bytes hfits hpool hij) hnodup
  · intro a
    rw [mem_memoryPool_iff hfits hpool hsize]
    constructor
    · rintro ⟨i, hi, hmem⟩
      exact ⟨i, hall.mem_iff.mpr (List.mem_range.mpr hi), hmem⟩
    · rintro ⟨i, hi, hmem⟩
      exact ⟨i, List.mem_range.mp (hall.mem_iff.mp hi), hmem⟩
  · intro r hr
    rw [hpool] at hr
    obtain ⟨i, -, rfl⟩ := List.mem_map.mp hr
    exact ⟨hkeys, UInt32.toNat_toUInt64 _⟩

/-- 10 bytes for buffers of 4: two buffers, of which both are taken. -/
theorem buffers_disjoint_example : ∃ b protDom u,
    new 10 4 {} 4096 (some ⟨1, 2⟩) = .ok (b, protDom) ∧
      Lts.exec PoolUse.step (PoolUse.init 2) [.getBuffers 2] = some u ∧ u.bag.held = [0, 1] ∧
      (u.bag.free ++ u.bag.held).Pairwise (fun i j => Disjoint (b.bytes i) (b.bytes j)) := by
  obtain ⟨b, protDom, hnew, hcount, hfits⟩ : ∃ b protDom,
      new 10 4 {} 4096 (some ⟨1, 2⟩) = .ok (b, protDom) ∧ b.bufferPoolSize = 2 ∧
        4096 + b.memoryPool.size.toNat ≤ 2 ^ 64 :=
    ⟨_, _, rfl, rfl, by decide⟩
  obtain ⟨u, hrun, hheld⟩ : ∃ u,
      Lts.exec PoolUse.step (PoolUse.init 2) [.getBuffers 2] = some u ∧ u.bag.held = [0, 1] :=
    ⟨_, rfl, rfl⟩
  have hwords : b.bufferPoolSize.toNat < 2 ^ 31 := by
    rw [hcount]
    decide
  have hrun' : Lts.exec PoolUse.step (PoolUse.init b.bufferPoolSize.toNat) [.getBuffers 2] =
      some u := by
    rw [hcount]
    exact hrun
  exact ⟨b, protDom, u, hnew, hrun, hheld, (buffers_disjoint hnew hfits hwords hrun').1⟩

end BufferMemory

end Ibdxnet.Dx
