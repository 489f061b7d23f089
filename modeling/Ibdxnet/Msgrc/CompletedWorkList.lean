import Ibdxnet.Msgrc.SendDispatcher
import Mathlib.Algebra.Order.BigOperators.Group.List
import Mathlib.Algebra.Order.Group.Nat

/-!
# The list of completed work

`m_completionList` sums up, for each node, the bytes and the flow control data
of the completions of one call of `Dispatch`.  A node is listed when both of
its sums are zero, and the sums are a `uint32_t` and a `uint8_t`:

    m_numBytesWritten[n] = bytes of n modulo 2^32
    m_fcDataWritten[n]   = flow control data of n modulo 2^8

So the list is right (`Lists`) as long as both sums of every node stay below,
and no node with two completions starts with an empty one (`lists_foldl_add`).
-/

namespace Ibdxnet.Msgrc

open Ibdxnet.Con

/-! ## Sums over contexts -/

/-- The bytes the contexts of node `n` sent. -/
def bytesOf (n : NodeId) (ctxs : List SendWorkRequestCtx) : Nat :=
  ((ctxs.filter fun ctx => ctx.targetNodeId = n).map SendWorkRequestCtx.sendSize).sum

/-- The flow control data the contexts of node `n` sent. -/
def fcDataOf (n : NodeId) (ctxs : List SendWorkRequestCtx) : Nat :=
  ((ctxs.filter fun ctx => ctx.targetNodeId = n).map fun ctx => ctx.fcData.toNat).sum

section
variable (n : NodeId) (ctxs : List SendWorkRequestCtx) (ctx : SendWorkRequestCtx)

theorem bytesOf_concat : bytesOf n (ctxs ++ [ctx]) =
    bytesOf n ctxs + if ctx.targetNodeId = n then ctx.sendSize else 0 := by
  rw [bytesOf, List.filter_append, List.map_append, List.sum_append]
  by_cases h : ctx.targetNodeId = n <;> simp [bytesOf, h]

theorem fcDataOf_concat : fcDataOf n (ctxs ++ [ctx]) =
    fcDataOf n ctxs + if ctx.targetNodeId = n then ctx.fcData.toNat else 0 := by
  rw [fcDataOf, List.filter_append, List.map_append, List.sum_append]
  by_cases h : ctx.targetNodeId = n <;> simp [fcDataOf, h]

end

/-- A node with a context that is not empty has a sum that is not zero. -/
theorem sums_ne_zero {n : NodeId} {ctxs : List SendWorkRequestCtx} {ctx : SendWorkRequestCtx}
    (hmem : ctx ∈ ctxs) (hn : ctx.targetNodeId = n)
    (hctx : ctx.sendSize ≠ 0 ∨ ctx.fcData.toNat ≠ 0) :
    ¬ (bytesOf n ctxs = 0 ∧ fcDataOf n ctxs = 0) := by
  have hfilter : ctx ∈ ctxs.filter fun ctx => ctx.targetNodeId = n :=
    List.mem_filter.mpr ⟨hmem, by simpa using hn⟩
  have hbytes : ctx.sendSize ≤ bytesOf n ctxs :=
    List.le_sum_of_mem (List.mem_map_of_mem hfilter)
  have hfc : ctx.fcData.toNat ≤ fcDataOf n ctxs :=
    List.le_sum_of_mem (List.mem_map_of_mem (f := fun ctx => ctx.fcData.toNat) hfilter)
  omega

namespace CompletedWorkList

/-- The nodes of the list, `m_nodeIds[0]` to `m_nodeIds[m_numNodes - 1]`. -/
def listed (l : CompletedWorkList) : List NodeId := (List.range l.numNodes).map l.nodeIds

/-- The values of a node that is not listed are zero. -/
def Tidy (l : CompletedWorkList) : Prop :=
  ∀ n, n ∉ l.listed → l.numBytesWritten n = 0 ∧ l.fcDataWritten n = 0

/-- No node is listed, and all values are zero. -/
structure Empty (l : CompletedWorkList) : Prop where
  numNodes : l.numNodes = 0
  numBytesWritten : ∀ n, l.numBytesWritten n = 0
  fcDataWritten : ∀ n, l.fcDataWritten n = 0

theorem empty_init : init.Empty := ⟨rfl, fun _ => rfl, fun _ => rfl⟩

/-! ## Reset -/

theorem foldl_resetEntry (l : CompletedWorkList) (k : Nat) :
    let l' := (List.range k).foldl resetEntry l
    (∀ n, l'.numBytesWritten n = if n ∈ (List.range k).map l.nodeIds then 0
      else l.numBytesWritten n) ∧
    (∀ n, l'.fcDataWritten n = if n ∈ (List.range k).map l.nodeIds then 0
      else l.fcDataWritten n) ∧
    ∀ i, k ≤ i → l'.nodeIds i = l.nodeIds i := by
  induction k with
  | zero => simp
  | succ k ih =>
    obtain ⟨hbytes, hfc, hids⟩ := ih
    simp only [List.range_succ, List.foldl_append, List.foldl_cons, List.foldl_nil, resetEntry,
      hids k (Nat.le_refl k), List.map_append, List.map_cons, List.map_nil, List.mem_append,
      List.mem_singleton, Function.update_apply]
    refine ⟨fun n => ?_, fun n => ?_, fun i hi => ?_⟩
    · rw [hbytes]
      grind
    · rw [hfc]
      grind
    · rw [if_neg (by omega), hids i (by omega)]

/-- `Reset` leaves nothing of a tidy list. -/
theorem Tidy.reset {l : CompletedWorkList} (h : l.Tidy) : l.reset.Empty := by
  obtain ⟨hbytes, hfc, -⟩ := foldl_resetEntry l l.numNodes
  refine ⟨rfl, fun n => ?_, fun n => ?_⟩
  · refine (hbytes n).trans ?_
    split
    · rfl
    · next hn => exact (h n hn).1
  · refine (hfc n).trans ?_
    split
    · rfl
    · next hn => exact (h n hn).2

/-! ## Adding completions -/

section
variable {l : CompletedWorkList} {ctx : SendWorkRequestCtx}

variable (l ctx) in
/-- The completion is the first one of its node, as far as the sums tell. -/
abbrev First : Prop :=
  l.numBytesWritten ctx.targetNodeId = 0 ∧ l.fcDataWritten ctx.targetNodeId = 0

theorem numNodes_add : (l.add ctx).numNodes =
    if First l ctx then (l.numNodes + 1) % 2 ^ 16 else l.numNodes := by
  unfold add
  dsimp only
  split <;> rfl

theorem nodeIds_add : (l.add ctx).nodeIds =
    if First l ctx then Function.update l.nodeIds l.numNodes ctx.targetNodeId else l.nodeIds := by
  unfold add
  dsimp only
  split <;> rfl

theorem numBytesWritten_add (n : NodeId) : (l.add ctx).numBytesWritten n =
    if n = ctx.targetNodeId then (l.numBytesWritten n + ctx.sendSize) % 2 ^ 32
    else l.numBytesWritten n := by
  have hupdate : (l.add ctx).numBytesWritten = Function.update l.numBytesWritten ctx.targetNodeId
      ((l.numBytesWritten ctx.targetNodeId + ctx.sendSize) % 2 ^ 32) := by
    unfold add
    dsimp only
    split <;> rfl
  rw [hupdate, Function.update_apply]
  split
  · next hn => rw [hn]
  · rfl

theorem fcDataWritten_add (n : NodeId) : (l.add ctx).fcDataWritten n =
    if n = ctx.targetNodeId then l.fcDataWritten n + ctx.fcData.toUInt8
    else l.fcDataWritten n := by
  have hupdate : (l.add ctx).fcDataWritten = Function.update l.fcDataWritten ctx.targetNodeId
      (l.fcDataWritten ctx.targetNodeId + ctx.fcData.toUInt8) := by
    unfold add
    dsimp only
    split <;> rfl
  rw [hupdate, Function.update_apply]
  split
  · next hn => rw [hn]
  · rfl

theorem listed_add (hroom : l.numNodes + 1 < 2 ^ 16) : (l.add ctx).listed =
    if First l ctx then l.listed ++ [ctx.targetNodeId] else l.listed := by
  rw [listed, numNodes_add, nodeIds_add]
  split
  · rw [Nat.mod_eq_of_lt hroom, List.range_succ, List.map_append, List.map_singleton,
      Function.update_self]
    congr 1
    apply List.map_congr_left
    intro i hi
    exact Function.update_of_ne (Nat.ne_of_lt (List.mem_range.mp hi)) ..
  · rfl

theorem numNodes_add_le : (l.add ctx).numNodes ≤ l.numNodes + 1 := by
  rw [numNodes_add]
  split
  · exact Nat.mod_le _ _
  · exact Nat.le_succ _

end

/-- The sums as they are kept, and that the list stays tidy. -/
theorem foldl_add {l : CompletedWorkList} (h : l.Empty) (ctxs : List SendWorkRequestCtx)
    (hlen : ctxs.length < 2 ^ 16) :
    let l' := ctxs.foldl add l
    l'.numNodes ≤ ctxs.length ∧ l'.Tidy ∧
      (∀ n, l'.numBytesWritten n = bytesOf n ctxs % 2 ^ 32) ∧
      ∀ n, (l'.fcDataWritten n).toNat = fcDataOf n ctxs % 2 ^ 8 := by
  induction ctxs using List.reverseRecOn with
  | nil =>
    exact ⟨Nat.le_of_eq h.numNodes, fun n _ => ⟨h.numBytesWritten n, h.fcDataWritten n⟩,
      h.numBytesWritten, fun n => congrArg UInt8.toNat (h.fcDataWritten n)⟩
  | append_singleton ctxs ctx ih =>
    rw [List.length_append, List.length_singleton] at hlen
    obtain ⟨hnum, htidy, hbytes, hfc⟩ := ih (by omega)
    simp only [List.foldl_append, List.foldl_cons, List.foldl_nil, List.length_append,
      List.length_singleton]
    refine ⟨?_, fun n hn => ?_, fun n => ?_, fun n => ?_⟩
    · exact numNodes_add_le.trans (Nat.succ_le_succ hnum)
    · rw [listed_add (by omega)] at hn
      have hne : n ≠ ctx.targetNodeId := by
        rintro rfl
        split at hn
        · exact hn (List.mem_append_right _ List.mem_cons_self)
        · next hset => exact hset (htidy _ hn)
      rw [numBytesWritten_add, fcDataWritten_add, if_neg hne, if_neg hne]
      refine htidy n fun hmem => hn ?_
      split
      · exact List.mem_append_left _ hmem
      · exact hmem
    · rw [numBytesWritten_add, bytesOf_concat, hbytes]
      by_cases hn : n = ctx.targetNodeId
      · rw [if_pos hn, if_pos hn.symm, Nat.mod_add_mod]
      · rw [if_neg hn, if_neg (Ne.symm hn), Nat.add_zero]
    · rw [fcDataWritten_add, fcDataOf_concat]
      by_cases hn : n = ctx.targetNodeId
      · rw [if_pos hn, if_pos hn.symm, UInt8.toNat_add, hfc, UInt16.toNat_toUInt8]
        simp
      · rw [if_neg hn, if_neg (Ne.symm hn), Nat.add_zero, hfc]

/-- Each node with a completion is listed once, with the exact sums of its
completions; all other values are zero. -/
structure Lists (l : CompletedWorkList) (ctxs : List SendWorkRequestCtx) : Prop where
  nodup : l.listed.Nodup
  mem_listed : ∀ n, n ∈ l.listed ↔ ∃ ctx ∈ ctxs, ctx.targetNodeId = n
  numBytesWritten : ∀ n, l.numBytesWritten n = bytesOf n ctxs
  fcDataWritten : ∀ n, (l.fcDataWritten n).toNat = fcDataOf n ctxs
  unlisted : ∀ n, n ∉ l.listed → l.numBytesWritten n = 0 ∧ l.fcDataWritten n = 0

/-- The sums fit into their fields, and the first of several completions of a
node is not empty. -/
structure Fits (ctxs : List SendWorkRequestCtx) : Prop where
  bytes : ∀ n, bytesOf n ctxs < 2 ^ 32
  fcData : ∀ n, fcDataOf n ctxs < 2 ^ 8
  first : ∀ n ctx ctx' rest,
    ctxs.filter (fun ctx => ctx.targetNodeId = n) = ctx :: ctx' :: rest →
      ctx.sendSize ≠ 0 ∨ ctx.fcData.toNat ≠ 0

theorem Fits.of_concat {ctxs : List SendWorkRequestCtx} {ctx : SendWorkRequestCtx}
    (h : Fits (ctxs ++ [ctx])) : Fits ctxs where
  bytes n := Nat.lt_of_le_of_lt (by rw [bytesOf_concat]; exact Nat.le_add_right _ _) (h.bytes n)
  fcData n := Nat.lt_of_le_of_lt (by rw [fcDataOf_concat]; exact Nat.le_add_right _ _) (h.fcData n)
  first n c c' rest hc := h.first n c c' (rest ++ [ctx].filter fun ctx => ctx.targetNodeId = n)
    (by rw [List.filter_append, hc]; rfl)

theorem lists_foldl_add {l : CompletedWorkList} (h : l.Empty) {ctxs : List SendWorkRequestCtx}
    (hlen : ctxs.length < 2 ^ 16) (hfits : Fits ctxs) : (ctxs.foldl add l).Lists ctxs := by
  have hsums := fun ctxs hlen => (foldl_add h ctxs hlen).2.2
  have hlisted : (ctxs.foldl add l).listed.Nodup ∧
      ∀ n, n ∈ (ctxs.foldl add l).listed ↔ ∃ ctx ∈ ctxs, ctx.targetNodeId = n := by
    induction ctxs using List.reverseRecOn with
    | nil => simp [listed, h.numNodes]
    | append_singleton ctxs ctx ih =>
      rw [List.length_append, List.length_singleton] at hlen
      have hfits' := hfits.of_concat
      obtain ⟨hnodup, hmem⟩ := ih (by omega) hfits'
      obtain ⟨hnum, -, hbytes, hfc⟩ := foldl_add h ctxs (by omega)
      -- listed exactly when there was no completion of the node before
      have hnew : (ctxs.foldl add l).numBytesWritten ctx.targetNodeId = 0 ∧
          (ctxs.foldl add l).fcDataWritten ctx.targetNodeId = 0 ↔
          ctx.targetNodeId ∉ (ctxs.foldl add l).listed := by
        have hz : (ctxs.foldl add l).fcDataWritten ctx.targetNodeId = 0 ↔
            fcDataOf ctx.targetNodeId ctxs = 0 := by
          rw [← UInt8.toNat_inj, hfc, Nat.mod_eq_of_lt (hfits'.fcData _)]
          rfl
        rw [hbytes, Nat.mod_eq_of_lt (hfits'.bytes _), hz, hmem]
        constructor
        · rintro hzero ⟨c, hc, hn⟩
          have hmemFilter : c ∈ ctxs.filter fun c => c.targetNodeId = ctx.targetNodeId :=
            List.mem_filter.mpr ⟨hc, decide_eq_true hn⟩
          obtain ⟨first, rest, hfilter⟩ :=
            List.exists_cons_of_ne_nil (List.ne_nil_of_mem hmemFilter)
          have hmem := List.mem_filter.mp (hfilter ▸ List.mem_cons_self)
          have hfirst : first.sendSize ≠ 0 ∨ first.fcData.toNat ≠ 0 := by
            have hconcat : (ctxs ++ [ctx]).filter (fun c => c.targetNodeId = ctx.targetNodeId) =
                first :: (rest ++ [ctx]) := by
              rw [List.filter_append, hfilter]
              simp
            obtain ⟨second, rest', hrest⟩ := List.exists_cons_of_ne_nil
              (List.append_ne_nil_of_right_ne_nil rest (List.cons_ne_nil ctx []))
            exact hfits.first ctx.targetNodeId first second rest' (hrest ▸ hconcat)
          exact sums_ne_zero hmem.1 (of_decide_eq_true hmem.2) hfirst hzero
        · intro hnone
          have hfilter : ctxs.filter (fun c => c.targetNodeId = ctx.targetNodeId) = [] := by
            rw [List.filter_eq_nil_iff]
            intro c hc hn
            exact hnone ⟨c, hc, by simpa using hn⟩
          simp [bytesOf, fcDataOf, hfilter]
      simp only [List.foldl_append, List.foldl_cons, List.foldl_nil]
      rw [listed_add (by omega)]
      by_cases hold : ctx.targetNodeId ∈ (ctxs.foldl add l).listed
      · rw [if_neg (fun hz => hnew.mp hz hold)]
        refine ⟨hnodup, fun n => ?_⟩
        rw [hmem]
        constructor
        · rintro ⟨c, hc, hn⟩
          exact ⟨c, List.mem_append_left _ hc, hn⟩
        · rintro ⟨c, hc, hn⟩
          rcases List.mem_append.mp hc with hc | hc
          · exact ⟨c, hc, hn⟩
          · rw [List.mem_singleton] at hc
            subst hc
            exact hn ▸ (hmem _).mp hold
      · rw [if_pos (hnew.mpr hold)]
        refine ⟨?_, fun n => ?_⟩
        · exact List.nodup_append.mpr ⟨hnodup, List.nodup_singleton _, fun a ha b hb => by
            rw [List.mem_singleton] at hb
            rintro rfl
            exact hold (hb ▸ ha)⟩
        · simp only [List.mem_append, hmem, List.mem_singleton]
          constructor
          · rintro (⟨c, hc, hn⟩ | rfl)
            · exact ⟨c, Or.inl hc, hn⟩
            · exact ⟨ctx, Or.inr rfl, rfl⟩
          · rintro ⟨c, hc | rfl, hn⟩
            · exact Or.inl ⟨c, hc, hn⟩
            · exact Or.inr hn.symm
  obtain ⟨-, htidy, hbytes, hfc⟩ := foldl_add h ctxs hlen
  refine ⟨hlisted.1, hlisted.2, fun n => ?_, fun n => ?_, htidy⟩
  · rw [hbytes, Nat.mod_eq_of_lt (hfits.bytes n)]
  · rw [hfc, Nat.mod_eq_of_lt (hfits.fcData n)]

end CompletedWorkList

end Ibdxnet.Msgrc
