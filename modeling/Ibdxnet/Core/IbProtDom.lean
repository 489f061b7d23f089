import Ibdxnet.Sys.Exception
import Mathlib.Order.Interval.Set.Defs

/-!
# Memory regions and the protection domain

`core::IbMemReg` is a piece of memory, registered by itself or as a part of a
region that is.  `core::IbProtDom` registers regions and counts them and their
bytes.  What the verbs return is an argument of each call.
-/

namespace Ibdxnet.Core

/-- How a call ends without returning. -/
inductive Failure
  /-- `IBNET_ASSERT` -/
  | assertion
  | thrown (e : Sys.Exception)
  deriving DecidableEq, Repr

/-- `ibv_mr` -/
structure IbvMr where
  lkey : UInt32
  rkey : UInt32
  deriving DecidableEq, Repr

structure IbMemReg where
  addr : UInt64
  size : UInt64
  freeOnCleanup : Bool
  ibMemReg : Option IbvMr
  deriving DecidableEq, Repr

namespace IbMemReg

def new (addr size : UInt64) (freeOnCleanup : Bool) : Except Failure IbMemReg :=
  if addr = 0 then .error .assertion
  else .ok { addr, size, freeOnCleanup, ibMemReg := none }

/-- The constructor of a part of a region. -/
def ofParent (addr size : UInt64) (refParentMemory : IbMemReg) : Except Failure IbMemReg :=
  if addr = 0 then .error .assertion
  else if size ≥ 0x7FFFFFFF then
    .error (.thrown (.ibException
      "Invalid size (%d) for memory region with parent region: %p (%d)"))
  else .ok { addr, size, freeOnCleanup := false, ibMemReg := refParentMemory.ibMemReg }

/-- The addresses of the region. -/
def bytes (r : IbMemReg) : Set ℕ := Set.Ico r.addr.toNat (r.addr.toNat + r.size.toNat)

end IbMemReg

structure IbProtDom where
  memoryRegionsRegistered : UInt64 := 0
  totalMemRegistered : UInt64 := 0
  deriving DecidableEq, Repr

namespace IbProtDom

/-- What the counters are when `Register` returns, and the region with its keys.
`regMr` is what `ibv_reg_mr` returns. -/
def register (p : IbProtDom) (refMemReg : IbMemReg) (regMr : Option IbvMr) :
    Except Failure (IbProtDom × IbMemReg) :=
  if refMemReg.size = 0 then .error .assertion
  else if refMemReg.addr = 0 then
    .error (.thrown (.ibException "[%s] Registering memory region failed, null"))
  else
    match regMr with
    | none => .error (.thrown (.ibException "[%s] Registering memory region failed: %s"))
    | some mr =>
      .ok
        ({ memoryRegionsRegistered := p.memoryRegionsRegistered + 1
           totalMemRegistered := p.totalMemRegistered + refMemReg.size },
          { refMemReg with ibMemReg := some mr })

/-- `deregMr` is what `ibv_dereg_mr` returns. -/
def deregister (p : IbProtDom) (refMemReg : IbMemReg) (deregMr : Int) :
    Except Failure (IbProtDom × IbMemReg) :=
  if refMemReg.size = 0 then .error .assertion
  else if deregMr ≠ 0 then
    .error (.thrown (.ibException "[%s] Deregistering memory region failed: %s"))
  else
    .ok
      ({ memoryRegionsRegistered := p.memoryRegionsRegistered - 1
         totalMemRegistered := p.totalMemRegistered - refMemReg.size },
        { refMemReg with ibMemReg := none })

/-- The destructor warns about memory that is still registered. -/
def warns (p : IbProtDom) : Bool := p.totalMemRegistered > 0

theorem register_eq_ok {p p' : IbProtDom} {r r' : IbMemReg} {regMr : Option IbvMr}
    (h : p.register r regMr = .ok (p', r')) :
    r.size ≠ 0 ∧ r.addr ≠ 0 ∧ ∃ mr, regMr = some mr ∧ r' = { r with ibMemReg := some mr } ∧
      p' = { memoryRegionsRegistered := p.memoryRegionsRegistered + 1
             totalMemRegistered := p.totalMemRegistered + r.size } := by
  unfold register at h
  split at h
  · cases h
  · next hsize =>
    split at h
    · cases h
    · next haddr =>
      split at h
      · cases h
      · next mr =>
        obtain ⟨rfl, rfl⟩ := Prod.mk.inj (Except.ok.inj h)
        exact ⟨hsize, haddr, mr, rfl, rfl, rfl⟩

theorem deregister_eq_ok {p p' : IbProtDom} {r r' : IbMemReg} {deregMr : Int}
    (h : p.deregister r deregMr = .ok (p', r')) :
    r.size ≠ 0 ∧
      p' = { memoryRegionsRegistered := p.memoryRegionsRegistered - 1
             totalMemRegistered := p.totalMemRegistered - r.size } ∧
      r' = { r with ibMemReg := none } := by
  unfold deregister at h
  split at h
  · cases h
  · next hsize =>
    split at h
    · cases h
    · obtain ⟨rfl, rfl⟩ := Prod.mk.inj (Except.ok.inj h)
      exact ⟨hsize, rfl, rfl⟩

end IbProtDom

end Ibdxnet.Core
