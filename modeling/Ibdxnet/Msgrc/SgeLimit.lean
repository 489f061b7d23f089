import Ibdxnet.Msgrc.ExactSlicing
import Mathlib.Logic.Function.Iterate

/-!
# Scatter-gather elements of the send side

A work request gets two scatter-gather elements when its piece crosses the end
of the ring, and one or none otherwise.  The queue pair is created with

    max_send_sge = m_maxSGEs

which the connection manager only checks against the upper limit of the device.
So the elements fit the queue pair exactly when `m_maxSGEs` is at least 2 or no
piece of the package crosses the end (`num_sge_le_iff`).  The entries of
`m_sgeLists` always suffice.
-/

namespace Ibdxnet.Msgrc

open Ibdxnet.Con Sys

/-- `qp_init_attr.cap.max_send_sge` in `__CreateQP` -/
def SendConfig.maxSendSge (cfg : SendConfig) : Nat := cfg.maxSGEs

/-- The `num_sge` of a work request. -/
def SendRequest.numSge (r : SendRequest) : Nat := r.sgList.length

def IbvSendWr.numSge (wr : IbvSendWr) : Nat := wr.sgList.length

/-- Where the `k`-th piece starts if no one before it is cut short. -/
def boundary (A : Arith) (M posBack k : Nat) : Nat := (fun p => A.add p M)^[k] posBack

/-- One of the first `room` pieces crosses the end of the ring: it starts behind
the front, as all before it, none of which ends at the end of the ring. -/
def Straddles (A : Arith) (S M posFront room posBack : Nat) : Prop :=
  posFront ≠ 0 ∧ ∃ k, k < room ∧
    (∀ j, j < k + 1 → posFront < boundary A M posBack j ∧ boundary A M posBack j ≠ S) ∧
      S < boundary A M posBack (k + 1)

instance (A : Arith) (S M posFront room posBack : Nat) :
    Decidable (Straddles A S M posFront room posBack) :=
  inferInstanceAs (Decidable (_ ∧ ∃ k, k < room ∧ (∀ j, j < k + 1 → _) ∧ _))

theorem boundary_succ (A : Arith) (M posBack k : Nat) :
    boundary A M posBack (k + 1) = boundary A M (A.add posBack M) k :=
  Function.iterate_succ_apply _ _ _

section
variable {A : Arith} {S M posFront posBack : Nat}

theorem not_straddles_of_le (room : Nat) (h : posBack ≤ posFront) :
    ¬ Straddles A S M posFront room posBack := by
  rintro ⟨-, k, -, hbefore, -⟩
  exact absurd (hbefore 0 (Nat.succ_pos k)).1 (Nat.not_lt.mpr h)

/-- Up to a chunk past the end of the ring no boundary wraps. -/
theorem boundary_eq {N M k : Nat} (hA : A.ExactBelow N) (hN : S + M < N)
    (hk : posBack + k * M ≤ S + M) : boundary A M posBack k = posBack + k * M := by
  induction k with
  | zero => rw [Nat.zero_mul, Nat.add_zero, boundary, Function.iterate_zero, id]
  | succ k ih =>
    rw [Nat.succ_mul] at hk ⊢
    rw [boundary, Function.iterate_succ_apply', ← boundary, ih (by omega), hA.add (by omega),
      Nat.add_assoc]

/-- The first piece crosses the end, or it ends before and a later one does. -/
theorem straddles_succ (room : Nat) (hfront : posFront ≠ 0) (hb : posFront < posBack)
    (hne : posBack ≠ S) :
    Straddles A S M posFront (room + 1) posBack ↔
      S < A.add posBack M ∨ Straddles A S M posFront room (A.add posBack M) := by
  constructor
  · rintro ⟨-, k, hk, hbefore, hcross⟩
    cases k with
    | zero => exact Or.inl hcross
    | succ k =>
      refine Or.inr ⟨hfront, k, by omega, fun j hj => ?_, ?_⟩
      · rw [← boundary_succ]
        exact hbefore (j + 1) (by omega)
      · rw [← boundary_succ]
        exact hcross
  · rintro (hcross | ⟨-, k, hk, hbefore, hcross⟩)
    · refine ⟨hfront, 0, Nat.succ_pos room, fun j hj => ?_, hcross⟩
      obtain rfl : j = 0 := by omega
      exact ⟨hb, hne⟩
    · refine ⟨hfront, k + 1, by omega, fun j hj => ?_, ?_⟩
      · cases j with
        | zero => exact ⟨hb, hne⟩
        | succ j =>
          rw [boundary_succ]
          exact hbefore j (by omega)
      · rw [boundary_succ]
        exact hcross

end

/-! ## One and two elements -/

section
variable {cfg : SendConfig} {S posFront posBack : Nat} {fcData : UInt8}

theorem dataRequest_numSge :
    (dataRequest cfg S posFront posBack fcData).numSge =
      if (nextSlice cfg.arith S cfg.maxRecvBufferSize posBack posFront).wrapAround = false then 1
      else 2 := by
  rw [dataRequest]
  split <;> rfl

/-- Only a piece that starts behind the front can cross the end. -/
theorem dataRequest_of_le (h : posBack ≤ posFront) :
    (dataRequest cfg S posFront posBack fcData).numSge = 1 ∧
      nextPosBack S (dataRequest cfg S posFront posBack fcData) ≤ posFront := by
  have hslice : (nextSlice cfg.arith S cfg.maxRecvBufferSize posBack posFront).wrapAround = false ∧
      (nextSlice cfg.arith S cfg.maxRecvBufferSize posBack posFront).posEnd ≤ posFront := by
    rw [nextSlice, if_neg (Nat.not_lt.mpr h)]
    split
    · exact ⟨rfl, Nat.le_refl _⟩
    · next hle => exact ⟨rfl, Nat.not_lt.mp hle⟩
  refine ⟨?_, ?_⟩
  · rw [dataRequest_numSge, if_pos hslice.1]
  · simp only [dataRequest, hslice.1, if_true, nextPosBack]
    split
    · exact Nat.zero_le _
    · exact hslice.2

/-- With the front at the start of the ring the end is not crossed either. -/
theorem dataRequest_of_front_zero (h : 0 < posBack) :
    (dataRequest cfg S 0 posBack fcData).numSge = 1 := by
  rw [dataRequest_numSge, nextSlice, if_pos h, if_pos rfl]
  split <;> rfl

/-- A piece that starts behind the front ends where the sum says, or crosses the end. -/
theorem dataRequest_of_lt (hfront : posFront ≠ 0) (h : posFront < posBack) :
    (cfg.arith.add posBack cfg.maxRecvBufferSize ≤ S →
      (dataRequest cfg S posFront posBack fcData).numSge = 1 ∧
        nextPosBack S (dataRequest cfg S posFront posBack fcData) =
          if cfg.arith.add posBack cfg.maxRecvBufferSize = S then 0
          else cfg.arith.add posBack cfg.maxRecvBufferSize) ∧
    (S < cfg.arith.add posBack cfg.maxRecvBufferSize →
      (dataRequest cfg S posFront posBack fcData).numSge = 2) := by
  refine ⟨fun hle => ?_, fun hgt => ?_⟩
  · have hslice : nextSlice cfg.arith S cfg.maxRecvBufferSize posBack posFront =
        ⟨cfg.arith.add posBack cfg.maxRecvBufferSize, false, 3⟩ := by
      rw [nextSlice, if_pos h, if_neg hfront, if_pos hle]
    rw [dataRequest_numSge, dataRequest, hslice]
    exact ⟨rfl, rfl⟩
  · rw [dataRequest_numSge, nextSlice, if_pos h, if_neg hfront, if_neg (Nat.not_le.mpr hgt)]
    simp only
    split <;> rfl

/-- No piece crosses the end once the position is not behind the front. -/
theorem numSge_of_le (room : Nat) (h : posBack ≤ posFront ∨ posFront = 0) :
    ∀ r ∈ requests cfg S posFront room posBack fcData, r.numSge ≤ 1 := by
  refine requests_induction
    (motive := fun _ posBack _ rs => posBack ≤ posFront ∨ posFront = 0 → ∀ r ∈ rs, r.numSge ≤ 1)
    ?zero ?empty ?flowControl ?data room posBack fcData h
  case zero =>
    intro _ _ _ r hr
    cases hr
  case empty =>
    intro _ _ r hr
    cases hr
  case flowControl =>
    intro _ fcData _ _ r hr
    rw [List.mem_singleton] at hr
    subst hr
    exact Nat.zero_le 1
  case data =>
    intro room posBack fcData rs _ ih h r hr
    rcases Nat.lt_or_ge posFront posBack with hlt | hle
    · have hfront : posFront = 0 := h.resolve_left (Nat.not_le.mpr hlt)
      rcases List.mem_cons.mp hr with rfl | hr
      · subst hfront
        exact Nat.le_of_eq (dataRequest_of_front_zero hlt)
      · exact ih (Or.inr hfront) r hr
    · obtain ⟨hone, hnext⟩ := @dataRequest_of_le cfg S posFront posBack fcData hle
      rcases List.mem_cons.mp hr with rfl | hr
      · exact Nat.le_of_eq hone
      · exact ih (Or.inl hnext) r hr

theorem numSge_le_two {room : Nat} : ∀ r ∈ requests cfg S posFront room posBack fcData,
    r.numSge ≤ 2 := by
  intro r hr
  rcases mem_requests hr with ⟨fcData', rfl⟩ | ⟨posBack', fcData', rfl⟩
  · exact Nat.zero_le 2
  · rw [dataRequest_numSge]
    split <;> decide

/-- **A request has two elements exactly when a piece crosses the end.** -/
theorem exists_numSge_two_iff (room : Nat) (hb : posBack < S) :
    (∃ r ∈ requests cfg S posFront room posBack fcData, r.numSge = 2) ↔
      Straddles cfg.arith S cfg.maxRecvBufferSize posFront room posBack := by
  induction room generalizing posBack fcData with
  | zero =>
    refine iff_of_false ?_ ?_
    · rintro ⟨r, hr, -⟩
      cases hr
    · rintro ⟨-, k, hk, -⟩
      exact absurd hk (Nat.not_lt_zero k)
  | succ room ih =>
    by_cases hle : posBack ≤ posFront ∨ posFront = 0
    · refine iff_of_false ?_ ?_
      · rintro ⟨r, hr, htwo⟩
        have := numSge_of_le (room + 1) hle r hr
        omega
      · rcases hle with hle | hzero
        · exact not_straddles_of_le (room + 1) hle
        · exact fun h => h.1 hzero
    · obtain ⟨hlt, hfront⟩ : posFront < posBack ∧ posFront ≠ 0 :=
        ⟨Nat.not_le.mp fun h => hle (Or.inl h), fun h => hle (Or.inr h)⟩
      obtain ⟨hflat, hcross⟩ := @dataRequest_of_lt cfg S posFront posBack fcData hfront hlt
      rw [requests_succ room (by omega), straddles_succ room hfront hlt (by omega),
        List.exists_mem_cons_iff]
      rcases Nat.lt_or_ge S (cfg.arith.add posBack cfg.maxRecvBufferSize) with hgt | hle'
      · exact iff_of_true (Or.inl (hcross hgt)) (Or.inl hgt)
      · obtain ⟨hone, hnext⟩ := hflat hle'
        rw [hone, hnext]
        refine or_congr (iff_of_false (by decide) (Nat.not_lt.mpr hle')) ?_
        split
        · next hend =>
          -- the piece ends at the end of the ring, where the position starts over
          refine iff_of_false ?_ ?_
          · rintro ⟨r, hr, htwo⟩
            have := numSge_of_le room (Or.inl (Nat.zero_le posFront)) r hr
            omega
          · rintro ⟨-, k, -, hbefore, -⟩
            exact (hbefore 0 (Nat.succ_pos k)).2 hend
        · exact ih (by omega)

/-- Where no position wraps, some piece crosses the end exactly if the bytes up to there
are no multiple of the chunk limit and the send queue has room to get there. -/
theorem straddles_iff {N M room : Nat} (hA : A.ExactBelow N) (hN : S + M < N) (hM : 0 < M)
    (hb : posBack < S) : Straddles A S M posFront room posBack ↔
      posFront ≠ 0 ∧ posFront < posBack ∧ ¬ M ∣ S - posBack ∧ S - posBack < room * M := by
  refine and_congr_right fun _ => ?_
  constructor
  · rintro ⟨k, hk, hbefore, hcross⟩
    have hfirst : posFront < posBack := (hbefore 0 (Nat.succ_pos k)).1
    -- the boundary behind the piece would still be inside the ring
    have hpast : S < posBack + (k + 1) * M := by
      by_contra hle
      rw [boundary_eq hA hN (by omega)] at hcross
      exact hle hcross
    have hroom := Nat.mul_le_mul_right M (show k + 1 ≤ room from hk)
    refine ⟨hfirst, ?_, by omega⟩
    rintro ⟨c, hc⟩
    rw [Nat.mul_comm] at hc
    have hck : c < k + 1 := Nat.lt_of_mul_lt_mul_right (a := M) (by omega)
    refine (hbefore c hck).2 ?_
    rw [boundary_eq hA hN (by omega)]
    omega
  · rintro ⟨hlt, hdvd, hroom⟩
    have hdiv := Nat.div_add_mod (S - posBack) M
    have hmod := Nat.mod_lt (S - posBack) hM
    rw [Nat.mul_comm] at hdiv
    refine ⟨(S - posBack) / M, (Nat.div_lt_iff_lt_mul hM).mpr hroom, fun j hj => ?_, ?_⟩
    · have hle := Nat.mul_le_mul_right M (Nat.le_of_lt_succ hj)
      rw [boundary_eq hA hN (by omega)]
      refine ⟨by omega, fun hend => hdvd ⟨j, ?_⟩⟩
      rw [Nat.mul_comm]
      omega
    · rw [boundary_eq hA hN (by rw [Nat.succ_mul]; omega), Nat.succ_mul]
      omega

end

/-! ## The theorem -/

section
variable {cfg : SendConfig} {connection : Connection} {workPackage : NextWorkPackage}
  {d : SendDispatcher} {xs : List Nat}

/-- The entries of `m_sgeLists` a batch takes. -/
def sgeSlots (rs : List SendRequest) : Nat := (rs.map SendRequest.numSge).sum

theorem sgeSlots_le (rs : List SendRequest) (h : ∀ r ∈ rs, r.numSge ≤ 2) :
    sgeSlots rs ≤ 2 * rs.length := by
  induction rs with
  | nil => exact Nat.le_refl 0
  | cons r rs ih =>
    have hr := h r List.mem_cons_self
    have hrs := ih fun r' hr' => h r' (List.mem_cons_of_mem r hr')
    rw [sgeSlots] at hrs ⊢
    rw [List.map_cons, List.sum_cons, List.length_cons]
    omega

/-- What `sgeListPos` counts. -/
theorem run_prepareLoop_sgeListPos {room : Nat} {l l' : PrepareState} {d d' : SendDispatcher}
    (hrun : (prepareLoop cfg connection workPackage room l).run d = .ok l' d') :
    l'.sgeListPos = l.sgeListPos + sgeSlots (requests cfg connection.sendBufferSize
      workPackage.posFrontRel room l.posBack l.fcData) := by
  induction room generalizing l d with
  | zero =>
    simp only [prepareLoop, EStateM.run_pure, EStateM.Result.ok.injEq] at hrun
    rw [← hrun.1]
    rfl
  | succ room ih =>
    rw [prepareLoop] at hrun
    rw [requests]
    by_cases hcond : l.posBack ≠ workPackage.posFrontRel ∨ l.fcData ≠ 0
    · rw [if_pos hcond] at hrun ⊢
      by_cases hfc : l.posBack = workPackage.posFrontRel ∧ l.fcData ≠ 0
      · rw [if_pos hfc] at hrun ⊢
        obtain ⟨_, d₁, -, hrun⟩ := Exec.run_bind_eq_ok.mp hrun
        simp only [EStateM.run_pure, EStateM.Result.ok.injEq] at hrun
        rw [← hrun.1]
        rfl
      · rw [if_neg hfc] at hrun ⊢
        obtain ⟨_, d₁, -, hrun⟩ := Exec.run_bind_eq_ok.mp hrun
        simp only at hrun ⊢
        generalize dataRequest cfg connection.sendBufferSize workPackage.posFrontRel l.posBack
          l.fcData = r at hrun ⊢
        by_cases hlast : nextPosBack connection.sendBufferSize r = workPackage.posFrontRel
        · rw [if_pos hlast] at hrun ⊢
          simp only [EStateM.run_pure, EStateM.Result.ok.injEq] at hrun
          rw [← hrun.1]
          simp [sgeSlots, SendRequest.numSge]
        · rw [if_neg hlast] at hrun ⊢
          rw [ih hrun]
          simp only [sgeSlots, SendRequest.numSge, List.map_cons, List.sum_cons]
          omega
    · rw [if_neg hcond] at hrun ⊢
      simp only [EStateM.run_pure, EStateM.Result.ok.injEq] at hrun
      rw [← hrun.1]
      rfl

/-- **Scatter-gather limits.**  The requests of a package fit the queue pair
exactly when it takes two elements or no piece crosses the end of the ring, which
where no position wraps is a matter of the chunk limit and the room; `m_sgeLists` has an
entry for every element, which `sgeListPos` counts; and the work requests a returning run
leaves in `m_sendWrs` are these requests. -/
theorem num_sge_le_iff (hG : 1 ≤ cfg.maxSGEs)
    (hb : workPackage.posBackRel < connection.sendBufferSize)
    (hpool : d.workRequestCtxPool.Holds xs) :
    ((∀ r ∈ packageRequests cfg d connection workPackage, r.numSge ≤ cfg.maxSendSge) ↔
      2 ≤ cfg.maxSGEs ∨ ¬ Straddles cfg.arith connection.sendBufferSize cfg.maxRecvBufferSize
        workPackage.posFrontRel (d.room cfg workPackage.nodeId) workPackage.posBackRel) ∧
    (∀ N, cfg.arith.ExactBelow N → connection.sendBufferSize + cfg.maxRecvBufferSize < N →
      0 < cfg.maxRecvBufferSize →
      (Straddles cfg.arith connection.sendBufferSize cfg.maxRecvBufferSize
          workPackage.posFrontRel (d.room cfg workPackage.nodeId) workPackage.posBackRel ↔
        workPackage.posFrontRel ≠ 0 ∧ workPackage.posFrontRel < workPackage.posBackRel ∧
          ¬ cfg.maxRecvBufferSize ∣ connection.sendBufferSize - workPackage.posBackRel ∧
          connection.sendBufferSize - workPackage.posBackRel <
            d.room cfg workPackage.nodeId * cfg.maxRecvBufferSize)) ∧
    sgeSlots (packageRequests cfg d connection workPackage) ≤ 2 * cfg.ibSQSize.toNat ∧
    (∀ l d', (prepareLoop cfg connection workPackage (d.room cfg workPackage.nodeId)
        ⟨workPackage.flowControlData, workPackage.posBackRel, 0, 0, 0, 0⟩).run d = .ok l d' →
      l.sgeListPos = sgeSlots (packageRequests cfg d connection workPackage)) ∧
    ∀ n d', (sendDataPrepareWorkRequests cfg connection workPackage).run d = .ok n d' →
      ((List.range n).map fun i => (d'.sendWrs i).numSge) =
        (packageRequests cfg d connection workPackage).map SendRequest.numSge := by
  refine ⟨?_, fun N hA hN hM => straddles_iff hA hN hM hb, ?_, fun l d' hrun => ?_,
    fun n d' hrun => ?_⟩
  · rw [← exists_numSge_two_iff (d.room cfg workPackage.nodeId) hb, SendConfig.maxSendSge]
    constructor
    · intro hall
      rcases Nat.lt_or_ge cfg.maxSGEs 2 with hlt | hge
      · refine Or.inr ?_
        rintro ⟨r, hr, htwo⟩
        have := hall r hr
        omega
      · exact Or.inl hge
    · rintro (htwo | hnone) r hr
      · exact Nat.le_trans (numSge_le_two r hr) htwo
      · have hle := numSge_le_two r hr
        have hne : r.numSge ≠ 2 := fun htwo => hnone ⟨r, hr, htwo⟩
        omega
  · refine Nat.le_trans (sgeSlots_le _ numSge_le_two) (Nat.mul_le_mul_left 2 ?_)
    exact Nat.le_trans (length_requests_le _ _ _) (Nat.sub_le _ _)
  · exact (run_prepareLoop_sgeListPos hrun).trans (Nat.zero_add _)
  · obtain ⟨ids, rest, p, -, hlen, -, -, rfl, rfl⟩ := run_prepare_ok hpool hrun
    exact map_sendWrs_eq hlen fun _ _ => rfl

end

/-- Two elements per work request, and a piece across the end of a ring of ten bytes. -/
theorem num_sge_le_iff_ten :
    let cfg : SendConfig := ⟨.uint32, 2, 2, 8, 8⟩
    ∀ r ∈ packageRequests cfg (.init cfg) ⟨1, 2, 10⟩ ⟨8, 3, 0, 2⟩, r.numSge ≤ cfg.maxSendSge := by
  intro cfg
  have h := @num_sge_le_iff cfg ⟨1, 2, 10⟩ ⟨8, 3, 0, 2⟩ (.init cfg) _ (by decide) (by decide)
    (SendWorkRequestCtxPool.init_holds 8)
  exact h.1.mpr (Or.inl (by decide))

/-- With one element per work request the same piece does not fit the queue pair. -/
theorem num_sge_exceeds :
    let cfg : SendConfig := ⟨.uint32, 4, 1, 8, 8⟩
    1 ≤ cfg.maxSGEs ∧ ∃ r ∈ packageRequests cfg (.init cfg) ⟨1, 2, 10⟩ ⟨8, 3, 0, 2⟩,
      r.sgList = [⟨8, 2⟩, ⟨0, 2⟩] ∧ ¬ r.numSge ≤ cfg.maxSendSge := by
  decide

end Ibdxnet.Msgrc
