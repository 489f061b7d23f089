import Ibdxnet.Connection.NodeId
import Mathlib.Algebra.Ring.Nat
import Mathlib.Data.List.Basic
import Mathlib.Logic.Function.Basic

/-!
# What send handler, send dispatcher and queue pair exchange

The structs of `SendHandler.h`, `SendWorkRequestCtx.h` and `Common.h`, and the
parts of the verbs structs the dispatchers fill in and read.  An `ibv_sge` is
given by its offset into the send buffer; a work request carries its
scatter-gather list by value (its entries of `m_sgeLists` are its own), and the
`next` pointer is an index into `m_sendWrs`.
-/

namespace Ibdxnet.Msgrc

open Ibdxnet.Con

structure NextWorkPackage where
  posBackRel : Nat
  posFrontRel : Nat
  flowControlData : UInt8
  nodeId : NodeId
  deriving DecidableEq, Repr

structure PrevWorkPackageResults where
  nodeId : NodeId
  numBytesPosted : Nat
  numBytesNotPosted : Nat
  fcDataPosted : UInt8
  fcDataNotPosted : UInt8
  deriving DecidableEq, Repr

/-- `PrevWorkPackageResults::Reset`, also what its constructor sets. -/
def PrevWorkPackageResults.reset : PrevWorkPackageResults where
  nodeId := nodeIdInvalid
  numBytesPosted := 0
  numBytesNotPosted := 0
  fcDataPosted := 0
  fcDataNotPosted := 0

structure CompletedWorkList where
  numNodes : Nat
  numBytesWritten : NodeId → Nat
  fcDataWritten : NodeId → UInt8
  nodeIds : Nat → NodeId

namespace CompletedWorkList

/-- The list after the constructor's `memset`. -/
def init : CompletedWorkList where
  numNodes := 0
  numBytesWritten _ := 0
  fcDataWritten _ := 0
  nodeIds _ := 0

/-- One round of the loop of `Reset`. -/
def resetEntry (l : CompletedWorkList) (i : Nat) : CompletedWorkList :=
  { l with
    numBytesWritten := Function.update l.numBytesWritten (l.nodeIds i) 0
    fcDataWritten := Function.update l.fcDataWritten (l.nodeIds i) 0
    nodeIds := Function.update l.nodeIds i nodeIdInvalid }

/-- `CompletedWorkList::Reset` -/
def reset (l : CompletedWorkList) : CompletedWorkList :=
  { (List.range l.numNodes).foldl resetEntry l with numNodes := 0 }

end CompletedWorkList

structure SendWorkRequestCtx where
  targetNodeId : NodeId
  fcData : UInt16
  sendSize : Nat
  posFront : Nat
  posBack : Nat
  posEnd : Nat
  debug : Nat
  deriving DecidableEq, Repr

/-- What the constructor of `SendWorkRequestCtx` sets. -/
def SendWorkRequestCtx.init : SendWorkRequestCtx where
  targetNodeId := nodeIdInvalid
  fcData := 0xFFFF
  sendSize := 0xFFFFFFFF
  posFront := 0xFFFFFFFF
  posBack := 0xFFFFFFFF
  posEnd := 0xFFFFFFFF
  debug := 0xFF

structure ImmediateData where
  sourceNodeId : NodeId
  flowControlData : UInt8
  deriving DecidableEq, Repr

/-- `ibv_sge`, its address relative to the start of the send buffer. -/
structure IbvSge where
  addr : Nat
  length : Nat
  deriving DecidableEq, Repr

/-- `ibv_send_wr` with opcode `IBV_WR_SEND_WITH_IMM`; `wrId` names a
`SendWorkRequestCtx`. -/
structure IbvSendWr where
  wrId : Nat
  next : Option Nat
  sgList : List IbvSge
  immData : ImmediateData
  signaled : Bool
  deriving DecidableEq, Repr

/-- The bytes the work request sends. -/
def IbvSendWr.length (wr : IbvSendWr) : Nat := (wr.sgList.map IbvSge.length).sum

/-- The offsets into the send buffer of the bytes the work request sends, in order. -/
def IbvSendWr.offsets (wr : IbvSendWr) : List Nat :=
  wr.sgList.flatMap fun sge => List.range' sge.addr sge.length

/-- An entry of `m_sendWrs` after the constructor's `memset`. -/
def IbvSendWr.init : IbvSendWr where
  wrId := 0
  next := none
  sgList := []
  immData := ⟨0, 0⟩
  signaled := false

/-- The `ibv_wc_status` values the dispatchers tell apart. -/
inductive IbvWcStatus
  | success
  | wrFlushErr
  | retryExcErr
  | other
  deriving DecidableEq, Repr

/-- `ibv_wc` as the send side reads it. -/
structure IbvWc where
  wrId : Nat
  status : IbvWcStatus
  deriving DecidableEq, Repr

end Ibdxnet.Msgrc
