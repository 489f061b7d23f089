import Ibdxnet.Msgrc.ExactSlicing

/-!
# The words of the slicer

`__SendDataPrepareWorkRequests` computes positions, lengths and counters in
`uint32_t`.  `prepareOps` lists the expressions it evaluates, in order, with the
values of their operands; such an operation is *exact* when the word it gives
is its value over the integers.

No check relates the buffer size `S` and the chunk limit

    M = m_recvBufferSize * GetMaxSGEs()

and both the product and `posBack + maxRecvBufferSize` can leave the range of
the words.  A package is sliced with exact words precisely when the product is
below `2 ^ 32` and so is `p + M` for each position `p` one of its chunks starts
at; all packages of a ring are precisely when `S + M ≤ 2 ^ 32` (`words_exact_iff`).
-/

namespace Ibdxnet.Msgrc

open Ibdxnet.Con Sys

/-! ## Operations -/

/-- A `uint32_t` expression with the values of its operands. -/
inductive ArithOp
  | add (a b : Nat)
  | sub (a b : Nat)
  | mul (a b : Nat)
  deriving DecidableEq, Repr

namespace ArithOp

/-- The word is the value over the integers. -/
def Exact : ArithOp → Prop
  | add a b => (Arith.uint32.add a b : Int) = a + b
  | sub a b => (Arith.uint32.sub a b : Int) = a - b
  | mul a b => (Arith.uint32.mul a b : Int) = a * b

instance : (op : ArithOp) → Decidable op.Exact
  | add a b => inferInstanceAs (Decidable ((Arith.uint32.add a b : Int) = a + b))
  | sub a b => inferInstanceAs (Decidable ((Arith.uint32.sub a b : Int) = a - b))
  | mul a b => inferInstanceAs (Decidable ((Arith.uint32.mul a b : Int) = a * b))

theorem exact_add_iff {a b : Nat} : (add a b).Exact ↔ a + b < 2 ^ 32 := by
  simp only [Exact, Arith.uint32]
  omega

theorem exact_sub_iff {a b : Nat} (ha : a < 2 ^ 32) (hb : b < 2 ^ 32) :
    (sub a b).Exact ↔ b ≤ a := by
  simp only [Exact, Arith.uint32]
  omega

theorem exact_mul_iff {a b : Nat} : (mul a b).Exact ↔ a * b < 2 ^ 32 := by
  simp only [Exact, Arith.uint32]
  rw [← Nat.cast_mul, Nat.cast_inj]
  exact ⟨fun h => h ▸ Nat.mod_lt _ (by decide), Nat.mod_eq_of_lt⟩

end ArithOp

/-- The operations of the case distinction on the end of the next piece. -/
def sliceOps (A : Arith) (sizeBuffer maxRecvBufferSize posBack posFront : Nat) : List ArithOp :=
  if posBack > posFront then
    if posFront = 0 then
      if A.add posBack maxRecvBufferSize > sizeBuffer then [.add posBack maxRecvBufferSize]
      else [.add posBack maxRecvBufferSize, .add posBack maxRecvBufferSize]
    else if A.add posBack maxRecvBufferSize ≤ sizeBuffer then
      [.add posBack maxRecvBufferSize, .add posBack maxRecvBufferSize]
    else
      let areaAtEndOfBufferSize := A.sub sizeBuffer posBack
      if A.add posFront areaAtEndOfBufferSize > maxRecvBufferSize then
        [.add posBack maxRecvBufferSize, .sub sizeBuffer posBack,
          .add posFront areaAtEndOfBufferSize, .sub maxRecvBufferSize areaAtEndOfBufferSize]
      else
        [.add posBack maxRecvBufferSize, .sub sizeBuffer posBack,
          .add posFront areaAtEndOfBufferSize]
  else if A.add posBack maxRecvBufferSize > posFront then [.add posBack maxRecvBufferSize]
  else [.add posBack maxRecvBufferSize, .add posBack maxRecvBufferSize]

/-- The operations on lengths and counters once the end of the piece is known. -/
def fillOps (A : Arith) (sizeBuffer : Nat) (slice : Slice) (l : PrepareState) : List ArithOp :=
  if slice.wrapAround = false then
    let length := A.sub slice.posEnd l.posBack
    [.sub slice.posEnd l.posBack, .add l.sgeListPos 1, .add l.totalBytesProcessed length,
      .add l.chunksPos 1]
  else
    let first := A.sub sizeBuffer l.posBack
    let totalLength := A.add first slice.posEnd
    [.sub sizeBuffer l.posBack, .add 0 first, .add l.sgeListPos 1, .add first slice.posEnd,
      .add (A.add l.sgeListPos 1) 1, .add l.totalBytesProcessed totalLength, .add l.chunksPos 1]

/-- The locals after the data request `r`. -/
def PrepareState.next (l : PrepareState) (cfg : SendConfig) (sizeBuffer : Nat) (r : SendRequest) :
    PrepareState where
  fcData := 0
  posBack := nextPosBack sizeBuffer r
  chunksPos := l.chunksPos + 1
  sgeListPos := l.sgeListPos + r.sgList.length
  totalBytesProcessed := cfg.arith.add l.totalBytesProcessed r.sendSize
  totalFcDataProcessed := if l.fcData > 0 then l.fcData else l.totalFcDataProcessed

@[simp] theorem PrepareState.next_posBack (l : PrepareState) (cfg : SendConfig) (S : Nat)
    (r : SendRequest) : (l.next cfg S r).posBack = nextPosBack S r := rfl

@[simp] theorem PrepareState.next_chunksPos (l : PrepareState) (cfg : SendConfig) (S : Nat)
    (r : SendRequest) : (l.next cfg S r).chunksPos = l.chunksPos + 1 := rfl

@[simp] theorem PrepareState.next_sgeListPos (l : PrepareState) (cfg : SendConfig) (S : Nat)
    (r : SendRequest) : (l.next cfg S r).sgeListPos = l.sgeListPos + r.sgList.length := rfl

/-- The operations of the loop; its test adds up `m_sendQueuePending[nodeId]` and `chunksPos`. -/
def loopOps (cfg : SendConfig) (sizeBuffer posFront pending : Nat) :
    Nat → PrepareState → List ArithOp
  | 0, l => [.add pending l.chunksPos]
  | room + 1, l => .add pending l.chunksPos ::
    if l.posBack ≠ posFront ∨ l.fcData ≠ 0 then
      if l.posBack = posFront ∧ l.fcData ≠ 0 then [.add l.chunksPos 1]
      else
        let slice := nextSlice cfg.arith sizeBuffer cfg.maxRecvBufferSize l.posBack posFront
        let l' := l.next cfg sizeBuffer (dataRequest cfg sizeBuffer posFront l.posBack l.fcData)
        sliceOps cfg.arith sizeBuffer cfg.maxRecvBufferSize l.posBack posFront ++
          fillOps cfg.arith sizeBuffer slice l ++
          if l'.posBack = posFront then [] else loopOps cfg sizeBuffer posFront pending room l'
    else []

/-- The operations of `totalBytesToProcess`. -/
def totalOps (A : Arith) (sizeBuffer posBack posFront : Nat) : List ArithOp :=
  if posBack > posFront then
    [.sub sizeBuffer posBack, .add (A.sub sizeBuffer posBack) posFront]
  else [.sub posFront posBack]

/-- The `uint32_t` expressions `__SendDataPrepareWorkRequests` evaluates, in order. -/
def prepareOps (cfg : SendConfig) (d : SendDispatcher) (connection : Connection)
    (workPackage : NextWorkPackage) : List ArithOp :=
  .mul cfg.recvBufferSize cfg.maxSGEs ::
    totalOps cfg.arith connection.sendBufferSize workPackage.posBackRel workPackage.posFrontRel ++
    loopOps cfg connection.sendBufferSize workPackage.posFrontRel
      (d.sendQueuePending workPackage.nodeId) (d.room cfg workPackage.nodeId)
      ⟨workPackage.flowControlData, workPackage.posBackRel, 0, 0, 0, 0⟩ ++
    [.sub (totalBytesToProcess cfg connection.sendBufferSize workPackage.posBackRel
        workPackage.posFrontRel)
      ((packageRequests cfg d connection workPackage).foldl (addSendSize cfg.arith) 0)]

/-! ## One round -/

section
variable {S M posBack posFront : Nat}

/-- Every branch adds the chunk limit to the position; where that fits, all else does. -/
theorem sliceOps_exact_iff (hS : S < 2 ^ 32) (hb : posBack < S) (hf : posFront < S) :
    (∀ op ∈ sliceOps .uint32 S M posBack posFront, op.Exact) ↔ posBack + M < 2 ^ 32 := by
  constructor
  · intro h
    refine ArithOp.exact_add_iff.mp (h (.add posBack M) ?_)
    unfold sliceOps
    split
    · split
      · split <;> simp
      · split
        · simp
        · simp only
          split <;> simp
    · split <;> simp
  · intro hN
    have hadd : Arith.uint32.add posBack M = posBack + M := Nat.mod_eq_of_lt hN
    have hsub : Arith.uint32.sub S posBack = S - posBack :=
      Arith.uint32_exactBelow.sub (by omega) hS
    have hexact : (ArithOp.add posBack M).Exact := ArithOp.exact_add_iff.mpr hN
    have harea : (ArithOp.sub S posBack).Exact :=
      (ArithOp.exact_sub_iff hS (by omega)).mpr (by omega)
    unfold sliceOps
    rw [hadd, hsub]
    by_cases hwrap : posBack > posFront
    · have hsum : Arith.uint32.add posFront (S - posBack) = posFront + (S - posBack) :=
        Nat.mod_eq_of_lt (by omega)
      have hfront : (ArithOp.add posFront (S - posBack)).Exact :=
        ArithOp.exact_add_iff.mpr (by omega)
      rw [if_pos hwrap]
      split
      · split <;> simpa using hexact
      · split
        · simpa using hexact
        · simp only [hsum]
          split
          · have hrest : (ArithOp.sub M (S - posBack)).Exact :=
              (ArithOp.exact_sub_iff (by omega) (by omega)).mpr (by omega)
            simp [hexact, harea, hfront, hrest]
          · simp [hexact, harea, hfront]
    · rw [if_neg hwrap]
      split <;> simpa using hexact

/-- Where the position plus the chunk limit fits, so do lengths and counters. -/
theorem fillOps_exact {l : PrepareState} (hS : S < 2 ^ 32) (hN : l.posBack + M < 2 ^ 32)
    (hb : l.posBack < S) (hf : posFront < S) (hchunks : l.chunksPos + 1 < 2 ^ 16)
    (hsge : l.sgeListPos ≤ 2 * l.chunksPos)
    (htotal : l.totalBytesProcessed + regionLength S l.posBack posFront < 2 ^ 32) :
    ∀ op ∈ fillOps .uint32 S (nextSlice .uint32 S M l.posBack posFront) l, op.Exact := by
  obtain ⟨hflat, hwrap⟩ := nextSlice_spec Arith.uint32_exactBelow hS hN hb hf
  have hlt := regionLength_lt posFront hb
  generalize nextSlice .uint32 S M l.posBack posFront = slice at hflat hwrap ⊢
  unfold fillOps
  cases hw : slice.wrapAround with
  | false =>
    obtain ⟨hend, hle⟩ := hflat hw
    have hsub : Arith.uint32.sub slice.posEnd l.posBack = slice.posEnd - l.posBack :=
      Arith.uint32_exactBelow.sub (by omega) (by omega)
    rw [if_pos rfl, hsub]
    simp only [List.forall_mem_cons, ArithOp.exact_add_iff]
    refine ⟨(ArithOp.exact_sub_iff (by omega) (by omega)).mpr (by omega), by omega, by omega,
      by omega, by simp⟩
  | true =>
    obtain ⟨hend, hlt'⟩ := hwrap hw
    have hsub : Arith.uint32.sub S l.posBack = S - l.posBack :=
      Arith.uint32_exactBelow.sub (by omega) hS
    have hadd : Arith.uint32.add (S - l.posBack) slice.posEnd = S - l.posBack + slice.posEnd :=
      Nat.mod_eq_of_lt (by omega)
    have hsgl : Arith.uint32.add l.sgeListPos 1 = l.sgeListPos + 1 := Nat.mod_eq_of_lt (by omega)
    rw [if_neg (by simp), hsub, hsgl]
    simp only [hadd, List.forall_mem_cons, ArithOp.exact_add_iff]
    refine ⟨(ArithOp.exact_sub_iff hS (by omega)).mpr (by omega), by omega, by omega, by omega,
      by omega, by omega, by omega, by simp⟩

end

theorem dataRequest_sgList_length (cfg : SendConfig) (S posFront posBack : Nat) (fcData : UInt8) :
    (dataRequest cfg S posFront posBack fcData).sgList.length ≤ 2 := by
  rw [dataRequest]
  split <;> simp

/-! ## All rounds -/

/-- The chunk limit added to the position `n` chunks in a row start at stays below `2 ^ 32`. -/
def ChunksFit (S M posBack n : Nat) : Prop :=
  ∀ k, k < n → (posBack + k * M) % S + M < 2 ^ 32

instance (S M posBack n : Nat) : Decidable (ChunksFit S M posBack n) :=
  inferInstanceAs (Decidable (∀ k, k < n → _))

theorem chunksFit_succ {S M posBack n : Nat} (hb : posBack < S) :
    ChunksFit S M posBack (n + 1) ↔
      posBack + M < 2 ^ 32 ∧ ChunksFit S M ((posBack + M) % S) n := by
  have hmod : ∀ k, ((posBack + M) % S + k * M) % S = (posBack + (k + 1) * M) % S := by
    intro k
    rw [Nat.mod_add_mod, Nat.succ_mul]
    congr 1
    omega
  simp only [ChunksFit, Nat.forall_lt_succ_left, Nat.zero_mul, Nat.add_zero,
    Nat.mod_eq_of_lt hb, hmod]

section
variable {cfg : SendConfig} {S M posFront : Nat}

/-- The chunks left after a first one. -/
theorem min_room_ceilDiv {room total : Nat} (hM : 0 < M) (htotal : 0 < total) :
    min (room + 1) (total ⌈/⌉ M) = min room ((total - M) ⌈/⌉ M) + 1 := by
  rw [ceilDiv_eq_succ hM htotal]
  omega

/-- Where the next chunk starts, if there is one. -/
theorem chunksFit_next {posBack next room : Nat} (hb : posBack < S) (hf : posFront < S)
    (hnext : next = (posBack + min M (regionLength S posBack posFront)) % S) :
    ChunksFit S M ((posBack + M) % S) (min room ((regionLength S posBack posFront - M) ⌈/⌉ M)) ↔
      ChunksFit S M next (min room (regionLength S next posFront ⌈/⌉ M)) := by
  have hrest := regionLength_add hb hf (Nat.min_le_right M (regionLength S posBack posFront))
  rw [← hnext] at hrest
  rcases Nat.lt_or_ge M (regionLength S posBack posFront) with h | h
  · have hmin : min M (regionLength S posBack posFront) = M := by omega
    rw [hrest, hnext, hmin]
  · have hmin : min M (regionLength S posBack posFront) = regionLength S posBack posFront := by
      omega
    rw [hrest, hmin, Nat.sub_self, Nat.sub_eq_zero_of_le h, zero_ceilDiv, Nat.min_zero]
    exact iff_of_true (fun _ hk => absurd hk (Nat.not_lt_zero _))
      fun _ hk => absurd hk (Nat.not_lt_zero _)

theorem loopOps_exact_iff (harith : cfg.arith = .uint32) (hMax : cfg.maxRecvBufferSize = M)
    (hM : 0 < M) (hS : S < 2 ^ 32) (hf : posFront < S) {pending : Nat} (hpending : pending < 2 ^ 16)
    (room : Nat) {l : PrepareState} (hb : l.posBack < S) (hchunks : l.chunksPos + room < 2 ^ 16)
    (hsge : l.sgeListPos ≤ 2 * l.chunksPos)
    (htotal : l.totalBytesProcessed + regionLength S l.posBack posFront < 2 ^ 32) :
    (∀ op ∈ loopOps cfg S posFront pending room l, op.Exact) ↔
      ChunksFit S M l.posBack (min room (regionLength S l.posBack posFront ⌈/⌉ M)) := by
  have htest : (ArithOp.add pending l.chunksPos).Exact := ArithOp.exact_add_iff.mpr (by omega)
  induction room generalizing l with
  | zero =>
    rw [loopOps, Nat.zero_min]
    exact iff_of_true (by simpa using htest) fun k hk => absurd hk (Nat.not_lt_zero k)
  | succ room ih =>
    have hzero := regionLength_eq_zero_iff hb hf
    rw [loopOps, List.forall_mem_cons, and_iff_right htest]
    by_cases hne : l.posBack = posFront
    · have hcount : ArithOp.Exact (.add l.chunksPos 1) := ArithOp.exact_add_iff.mpr (by omega)
      rw [hzero.mpr hne, zero_ceilDiv, Nat.min_zero]
      refine iff_of_true ?_ fun k hk => absurd hk (Nat.not_lt_zero k)
      by_cases hfc : l.fcData = 0
      · simp [hne, hfc]
      · simpa [hne, hfc] using hcount
    · rw [if_pos (Or.inl hne), if_neg (fun h => hne h.1),
        min_room_ceilDiv hM (Nat.pos_of_ne_zero (fun h => hne (hzero.mp h))), chunksFit_succ hb]
      simp only [List.forall_mem_append, harith, hMax, sliceOps_exact_iff hS hb hf, and_assoc]
      refine and_congr_right fun hN => ?_
      have hA : cfg.arith.ExactBelow (2 ^ 32) := harith ▸ Arith.uint32_exactBelow
      have hpiece := dataRequest_takesPiece l.fcData hA hMax hS hN hb hf hne
      have hsgl := dataRequest_sgList_length cfg S posFront l.posBack l.fcData
      rw [and_iff_right (fillOps_exact hS hN hb hf (by omega) hsge htotal),
        chunksFit_next hb hf hpiece.next_eq]
      generalize dataRequest cfg S posFront l.posBack l.fcData = r at hpiece hsgl ⊢
      have hsize := hpiece.sendSize
      have hadd : (l.next cfg S r).totalBytesProcessed = l.totalBytesProcessed + r.sendSize := by
        rw [PrepareState.next, harith]
        exact Nat.mod_eq_of_lt (by omega)
      by_cases hlast : nextPosBack S r = posFront
      · rw [PrepareState.next_posBack, if_pos hlast, hlast,
          (regionLength_eq_zero_iff hf hf).mpr rfl, zero_ceilDiv, Nat.min_zero]
        exact iff_of_true (by simp) fun k hk => absurd hk (Nat.not_lt_zero k)
      · rw [PrepareState.next_posBack, if_neg hlast]
        refine ih (l := l.next cfg S r) hpiece.next_lt ?_ ?_ ?_ ?_
        · rw [PrepareState.next_chunksPos]
          omega
        · rw [PrepareState.next_chunksPos, PrepareState.next_sgeListPos]
          omega
        · rw [hadd, PrepareState.next_posBack, hpiece.rest, hsize]
          omega
        · rw [PrepareState.next_chunksPos]
          exact ArithOp.exact_add_iff.mpr (by omega)

end

/-! ## The requests over words and over the integers -/

/-- The same configuration with positions and lengths over the integers. -/
def SendConfig.overIntegers (cfg : SendConfig) : SendConfig := { cfg with arith := .exact }

section
variable {cfg : SendConfig} {S M posBack posFront : Nat}

theorem nextSlice_eq_exact (hS : S < 2 ^ 32) (hN : posBack + M < 2 ^ 32) (hb : posBack < S) :
    nextSlice .uint32 S M posBack posFront = nextSlice .exact S M posBack posFront := by
  have hadd : Arith.uint32.add posBack M = Arith.exact.add posBack M := Nat.mod_eq_of_lt hN
  have hsub : Arith.uint32.sub S posBack = Arith.exact.sub S posBack :=
    Arith.uint32_exactBelow.sub (by omega) hS
  simp only [nextSlice, hadd, hsub]
  by_cases hwrap : posBack > posFront
  · have hsum : Arith.uint32.add posFront (Arith.exact.sub S posBack) =
        Arith.exact.add posFront (Arith.exact.sub S posBack) :=
      Nat.mod_eq_of_lt (by simp only [Arith.exact]; omega)
    simp only [if_pos hwrap, hsum]
    split
    · rfl
    · split
      · rfl
      · next hge =>
        have hrest : Arith.uint32.sub M (Arith.exact.sub S posBack) =
            Arith.exact.sub M (Arith.exact.sub S posBack) := by
          simp only [Arith.exact] at hge ⊢
          exact Arith.uint32_exactBelow.sub (by omega) (by omega)
        rw [hrest]
  · rw [if_neg hwrap, if_neg hwrap]

theorem dataRequest_eq_exact (harith : cfg.arith = .uint32) (hMax : cfg.maxRecvBufferSize = M)
    (hMax' : cfg.overIntegers.maxRecvBufferSize = M) (hS : S < 2 ^ 32) (hN : posBack + M < 2 ^ 32)
    (hb : posBack < S) (hf : posFront < S) (fcData : UInt8) :
    dataRequest cfg S posFront posBack fcData =
      dataRequest cfg.overIntegers S posFront posBack fcData := by
  have hlt := regionLength_lt posFront hb
  obtain ⟨hflat, hwrap⟩ := nextSlice_spec (Arith.exact_exactBelow (2 ^ 32)) hS hN hb hf
  simp only [dataRequest, hMax, hMax', harith, nextSlice_eq_exact hS hN hb,
    show cfg.overIntegers.arith = .exact from rfl]
  generalize nextSlice .exact S M posBack posFront = slice at hflat hwrap ⊢
  cases hw : slice.wrapAround with
  | false =>
    obtain ⟨hend, hle⟩ := hflat hw
    have hsub : Arith.uint32.sub slice.posEnd posBack = Arith.exact.sub slice.posEnd posBack :=
      Arith.uint32_exactBelow.sub (by omega) (by omega)
    rw [if_pos rfl, if_pos rfl, hsub]
  | true =>
    obtain ⟨hend, hlt'⟩ := hwrap hw
    have hsub : Arith.uint32.sub S posBack = Arith.exact.sub S posBack :=
      Arith.uint32_exactBelow.sub (by omega) hS
    have hadd : Arith.uint32.add (Arith.exact.sub S posBack) slice.posEnd =
        Arith.exact.add (Arith.exact.sub S posBack) slice.posEnd :=
      Nat.mod_eq_of_lt (by simp only [Arith.exact]; omega)
    rw [if_neg (by simp), if_neg (by simp), hsub, hadd]

/-- Where the chunks fit, the loop builds what it builds over the integers. -/
theorem requests_eq_exact (harith : cfg.arith = .uint32) (hMax : cfg.maxRecvBufferSize = M)
    (hMax' : cfg.overIntegers.maxRecvBufferSize = M) (hM : 0 < M) (hS : S < 2 ^ 32)
    (hf : posFront < S) (room : Nat) (hb : posBack < S) (fcData : UInt8)
    (hfit : ChunksFit S M posBack (min room (regionLength S posBack posFront ⌈/⌉ M))) :
    requests cfg S posFront room posBack fcData =
      requests cfg.overIntegers S posFront room posBack fcData := by
  induction room generalizing posBack fcData with
  | zero => rfl
  | succ room ih =>
    by_cases hne : posBack = posFront
    · rw [hne, requests_empty, requests_empty]
    · have hzero := regionLength_eq_zero_iff hb hf
      rw [min_room_ceilDiv hM (Nat.pos_of_ne_zero (fun h => hne (hzero.mp h))),
        chunksFit_succ hb] at hfit
      obtain ⟨hN, hfit⟩ := hfit
      have hA : cfg.arith.ExactBelow (2 ^ 32) := harith ▸ Arith.uint32_exactBelow
      have hpiece := dataRequest_takesPiece fcData hA hMax hS hN hb hf hne
      rw [chunksFit_next hb hf hpiece.next_eq] at hfit
      rw [requests_succ room hne, requests_succ room hne, ih hpiece.next_lt 0 hfit,
        dataRequest_eq_exact harith hMax hMax' hS hN hb hf]

end

/-! ## Scatter-gather elements -/

/-- All elements of the request lie inside a buffer of this size. -/
def SendRequest.InBuffer (r : SendRequest) (sizeBuffer : Nat) : Prop :=
  ∀ sge ∈ r.sgList, sge.addr + sge.length ≤ sizeBuffer

instance (r : SendRequest) (sizeBuffer : Nat) : Decidable (r.InBuffer sizeBuffer) :=
  inferInstanceAs (Decidable (∀ sge ∈ r.sgList, _))

section
variable {cfg : SendConfig} {N S posBack posFront : Nat}

theorem dataRequest_inBuffer (hA : cfg.arith.ExactBelow N) (hS : S < N)
    (hN : posBack + cfg.maxRecvBufferSize < N) (hb : posBack < S) (hf : posFront < S)
    (fcData : UInt8) : (dataRequest cfg S posFront posBack fcData).InBuffer S := by
  obtain ⟨hflat, hwrap⟩ := nextSlice_spec hA hS hN hb hf
  simp only [dataRequest]
  generalize nextSlice cfg.arith S cfg.maxRecvBufferSize posBack posFront = slice at hflat hwrap ⊢
  cases hw : slice.wrapAround with
  | false =>
    obtain ⟨hend, hle⟩ := hflat hw
    have hsub : cfg.arith.sub slice.posEnd posBack = slice.posEnd - posBack :=
      hA.sub (by omega) (by omega)
    simp only [if_true, SendRequest.InBuffer, List.mem_singleton, forall_eq, hsub]
    omega
  | true =>
    obtain ⟨hend, hlt⟩ := hwrap hw
    have hsub : cfg.arith.sub S posBack = S - posBack := hA.sub (by omega) hS
    simp only [Bool.true_eq_false, if_false, SendRequest.InBuffer, List.mem_cons,
      List.not_mem_nil, or_false, forall_eq_or_imp, forall_eq, hsub]
    omega

theorem requests_inBuffer (hA : cfg.arith.ExactBelow N) (hN : S + cfg.maxRecvBufferSize < N)
    (hM : 0 < cfg.maxRecvBufferSize) (room : Nat) (hb : posBack < S) (hf : posFront < S)
    (fcData : UInt8) :
    ∀ r ∈ requests cfg S posFront room posBack fcData,
      r.InBuffer S ∧ (r.sgList ≠ [] → 1 ≤ r.sendSize) := by
  refine requests_ring_induction hA rfl hN hf
    (motive := fun _ _ _ rs => ∀ r ∈ rs, r.InBuffer S ∧ (r.sgList ≠ [] → 1 ≤ r.sendSize))
    ?zero ?empty ?flowControl ?data room fcData hb
  case zero =>
    intro _ _ r hr
    cases hr
  case empty =>
    intro _ r hr
    cases hr
  case flowControl =>
    intro _ fcData _ r hr
    rw [List.mem_singleton] at hr
    subst hr
    exact ⟨fun _ hsge => absurd hsge List.not_mem_nil, fun h => absurd rfl h⟩
  case data =>
    intro room posBack fcData next rs hb hpiece ih r hr
    rcases List.mem_cons.mp hr with rfl | hr
    · have hpos := hpiece.total_pos
      refine ⟨dataRequest_inBuffer hA (by omega) (by omega) hb hf fcData, fun _ => ?_⟩
      rw [hpiece.sendSize]
      omega
    · exact ih r hr

end

/-! ## The theorem -/

/-- Every expression has its value over the integers, every scatter-gather
element lies in the buffer, and every data request makes progress. -/
structure WordsExact (cfg : SendConfig) (d : SendDispatcher) (connection : Connection)
    (workPackage : NextWorkPackage) : Prop where
  exact : ∀ op ∈ prepareOps cfg d connection workPackage, op.Exact
  inBuffer : ∀ r ∈ packageRequests cfg d connection workPackage,
    r.InBuffer connection.sendBufferSize
  progress : ∀ r ∈ packageRequests cfg d connection workPackage,
    r.sgList ≠ [] → 1 ≤ r.sendSize

/-- A package of the given ring, and a node whose pending requests fit their `uint16_t`. -/
structure OverRing (S : Nat) (d : SendDispatcher) (connection : Connection)
    (workPackage : NextWorkPackage) : Prop where
  sendBufferSize : connection.sendBufferSize = S
  posBack : workPackage.posBackRel < S
  posFront : workPackage.posFrontRel < S
  pending : d.sendQueuePending workPackage.nodeId < 2 ^ 16

section
variable {cfg : SendConfig} {connection : Connection} {workPackage : NextWorkPackage}
  {d : SendDispatcher}

/-- The total of the loop, where it builds what it builds over the integers. -/
theorem foldl_addSendSize_of_eq {S posBack posFront room : Nat} {fcData : UInt8}
    (harith : cfg.arith = .uint32) (hM : 0 < cfg.overIntegers.maxRecvBufferSize)
    (hS : S < 2 ^ 32) (hb : posBack < S) (hf : posFront < S)
    (heq : requests cfg S posFront room posBack fcData =
      requests cfg.overIntegers S posFront room posBack fcData) :
    (requests cfg S posFront room posBack fcData).foldl (addSendSize cfg.arith) 0 =
      min (room * cfg.overIntegers.maxRecvBufferSize) (regionLength S posBack posFront) := by
  have hlt := regionLength_lt posFront hb
  have hlawful : cfg.arith.Lawful := harith ▸ Arith.uint32_lawful
  have hlawful' : cfg.overIntegers.arith.Lawful := Arith.exact_lawful
  have hA : cfg.overIntegers.arith.ExactBelow (S + cfg.overIntegers.maxRecvBufferSize + 1) :=
    Arith.exact_exactBelow _
  have hints : (requests cfg.overIntegers S posFront room posBack fcData).foldl
      (addSendSize cfg.overIntegers.arith) 0 =
        0 + min (room * cfg.overIntegers.maxRecvBufferSize) (regionLength S posBack posFront) :=
    foldl_addSendSize_requests hA rfl (Nat.lt_succ_self _) room hb hf (by omega)
  rw [foldl_addSendSize_eq hlawful', Nat.zero_add] at hints
  rw [foldl_addSendSize_eq hlawful, heq, harith, ← hints]
  simp only [Arith.norm, Arith.uint32, SendConfig.overIntegers, Arith.exact, Nat.zero_add]
    at hints ⊢
  exact Nat.mod_eq_of_lt (by omega)

theorem totalOps_exact {S posBack posFront : Nat} (hS : S < 2 ^ 32) (hb : posBack < S)
    (hf : posFront < S) : ∀ op ∈ totalOps .uint32 S posBack posFront, op.Exact := by
  have hsub : Arith.uint32.sub S posBack = S - posBack :=
    Arith.uint32_exactBelow.sub (by omega) hS
  unfold totalOps
  rw [hsub]
  split
  · have hadd : (ArithOp.add (S - posBack) posFront).Exact :=
      ArithOp.exact_add_iff.mpr (by omega)
    have harea : (ArithOp.sub S posBack).Exact :=
      (ArithOp.exact_sub_iff hS (by omega)).mpr (by omega)
    simp [hadd, harea]
  · have harea : (ArithOp.sub posFront posBack).Exact :=
      (ArithOp.exact_sub_iff (by omega) (by omega)).mpr (by omega)
    simpa using harea

/-- The chunk limit fits into a word, and so does its sum with each position a
chunk of the package starts at. -/
def PackageFits (cfg : SendConfig) (d : SendDispatcher) (connection : Connection)
    (workPackage : NextWorkPackage) : Prop :=
  cfg.recvBufferSize * cfg.maxSGEs < 2 ^ 32 ∧
    ChunksFit connection.sendBufferSize (cfg.recvBufferSize * cfg.maxSGEs) workPackage.posBackRel
      (min (d.room cfg workPackage.nodeId)
        (workPackage.total connection.sendBufferSize ⌈/⌉ (cfg.recvBufferSize * cfg.maxSGEs)))

instance (cfg : SendConfig) (d : SendDispatcher) (connection : Connection)
    (workPackage : NextWorkPackage) : Decidable (PackageFits cfg d connection workPackage) :=
  inferInstanceAs (Decidable (_ ∧ ChunksFit _ _ _ _))

theorem wordsExact_iff_packageFits (harith : cfg.arith = .uint32) (hR : 1 ≤ cfg.recvBufferSize)
    (hG : 1 ≤ cfg.maxSGEs) (hS : connection.sendBufferSize < 2 ^ 32)
    (h : OverRing connection.sendBufferSize d connection workPackage) :
    WordsExact cfg d connection workPackage ↔ PackageFits cfg d connection workPackage := by
  obtain ⟨-, hb, hf, hP⟩ := h
  have hiff : WordsExact cfg d connection workPackage ↔
      (∀ op ∈ prepareOps cfg d connection workPackage, op.Exact) ∧
        ∀ r ∈ packageRequests cfg d connection workPackage,
          r.InBuffer connection.sendBufferSize ∧ (r.sgList ≠ [] → 1 ≤ r.sendSize) :=
    ⟨fun h => ⟨h.exact, fun r hr => ⟨h.inBuffer r hr, h.progress r hr⟩⟩,
      fun h => ⟨h.1, fun r hr => (h.2 r hr).1, fun r hr => (h.2 r hr).2⟩⟩
  rw [hiff, PackageFits]
  have hroom := cfg.ibSQSize.toNat_lt
  have hlt := regionLength_lt workPackage.posFrontRel hb
  simp only [prepareOps, List.forall_mem_append, List.forall_mem_cons, ArithOp.exact_mul_iff,
    List.not_mem_nil, false_implies, implies_true, and_true, and_assoc]
  refine and_congr_right fun hmul => ?_
  have hM : 0 < cfg.recvBufferSize * cfg.maxSGEs := Nat.mul_pos hR hG
  have hMax : cfg.maxRecvBufferSize = cfg.recvBufferSize * cfg.maxSGEs := by
    rw [SendConfig.maxRecvBufferSize, harith]
    exact Nat.mod_eq_of_lt hmul
  rw [and_iff_right (harith ▸ totalOps_exact hS hb hf), loopOps_exact_iff harith hMax hM hS hf hP
    (d.room cfg workPackage.nodeId) hb (by simp only [SendDispatcher.room]; omega) (Nat.le_refl _)
    (by simp only; omega)]
  refine and_iff_left_of_imp fun hfit => ?_
  have heq := requests_eq_exact harith hMax rfl hM hS hf (d.room cfg workPackage.nodeId) hb
    workPackage.flowControlData hfit
  have hA : cfg.overIntegers.arith.ExactBelow
      (connection.sendBufferSize + cfg.overIntegers.maxRecvBufferSize + 1) :=
    Arith.exact_exactBelow _
  have hposted := foldl_addSendSize_of_eq harith hM hS hb hf heq
  have hwords : cfg.arith.ExactBelow (2 ^ 32) := harith ▸ Arith.uint32_exactBelow
  have htotal := totalBytesToProcess_eq hwords hS hb hf
  refine ⟨?_, ?_⟩
  · rw [htotal, show (packageRequests cfg d connection workPackage).foldl
      (addSendSize cfg.arith) 0 = _ from hposted]
    have hle := Nat.min_le_right (d.room cfg workPackage.nodeId *
      cfg.overIntegers.maxRecvBufferSize) (regionLength connection.sendBufferSize
        workPackage.posBackRel workPackage.posFrontRel)
    exact (ArithOp.exact_sub_iff (by omega) (by omega)).mpr hle
  · intro r hr
    rw [packageRequests, show cfg.ibSQSize.toNat - d.sendQueuePending workPackage.nodeId =
      d.room cfg workPackage.nodeId from rfl, heq] at hr
    exact requests_inBuffer hA (Nat.lt_succ_self _) hM _ hb hf _ r hr

/-- The positions of a ring all fit exactly when the last one does. -/
theorem packageFits_of_le {S : Nat} (h : OverRing S d connection workPackage)
    (hle : S + cfg.recvBufferSize * cfg.maxSGEs ≤ 2 ^ 32) :
    PackageFits cfg d connection workPackage := by
  obtain ⟨hsize, hb, -, -⟩ := h
  refine ⟨by omega, fun k _ => ?_⟩
  rw [hsize]
  have := Nat.mod_lt (workPackage.posBackRel + k * (cfg.recvBufferSize * cfg.maxSGEs))
    (show 0 < S by omega)
  omega

/-- The last byte of a ring, and no other, is a package. -/
theorem overRing_last {S : Nat} (hS : 1 ≤ S) :
    OverRing S (.init cfg) ⟨0, 0, S⟩ ⟨S - 1, 0, 0, 0⟩ where
  sendBufferSize := rfl
  posBack := by simp only; omega
  posFront := hS
  pending := Nat.two_pow_pos 16

theorem le_of_packageFits_last {S : Nat} (hS : 1 ≤ S) (hQ : 0 < cfg.ibSQSize.toNat)
    (hR : 1 ≤ cfg.recvBufferSize) (hG : 1 ≤ cfg.maxSGEs)
    (h : PackageFits cfg (.init cfg) ⟨0, 0, S⟩ ⟨S - 1, 0, 0, 0⟩) :
    S + cfg.recvBufferSize * cfg.maxSGEs ≤ 2 ^ 32 := by
  obtain ⟨hmul, hfit⟩ := h
  rcases Nat.lt_or_ge 1 S with hgt | hle
  · have htotal : NextWorkPackage.total ⟨S - 1, 0, 0, 0⟩ S = 1 := by
      rw [NextWorkPackage.total, regionLength_eq (by simp only; omega) (by simp only; omega)]
      rw [if_neg (by simp only; omega)]
      simp only
      omega
    have hchunk : 0 < 1 ⌈/⌉ (cfg.recvBufferSize * cfg.maxSGEs) :=
      (lt_ceilDiv_iff (Nat.mul_pos hR hG)).mpr (by omega)
    have hroom : SendDispatcher.room (.init cfg) cfg 0 = cfg.ibSQSize.toNat := Nat.sub_zero _
    have hlast := hfit 0 (by
      simp only [htotal, hroom]
      omega)
    simp only [Nat.zero_mul, Nat.add_zero] at hlast
    rw [Nat.mod_eq_of_lt (by omega)] at hlast
    omega
  · omega

/-- **When the words of the slicer are exact.**  For a package, if and only if
the chunk limit and its sums with the positions of the chunks fit; for all
packages of a ring, if and only if its size plus the chunk limit is at most
`2 ^ 32`. -/
theorem words_exact_iff (harith : cfg.arith = .uint32) (hR : 1 ≤ cfg.recvBufferSize)
    (hG : 1 ≤ cfg.maxSGEs) {S : Nat} (hS : 1 ≤ S) (hS' : S < 2 ^ 32) :
    (∀ d connection workPackage, OverRing S d connection workPackage →
      (WordsExact cfg d connection workPackage ↔ PackageFits cfg d connection workPackage)) ∧
    (0 < cfg.ibSQSize.toNat →
      ((∀ d connection workPackage, OverRing S d connection workPackage →
        WordsExact cfg d connection workPackage) ↔
          S + cfg.recvBufferSize * cfg.maxSGEs ≤ 2 ^ 32)) := by
  have hiff : ∀ d connection workPackage, OverRing S d connection workPackage →
      (WordsExact cfg d connection workPackage ↔ PackageFits cfg d connection workPackage) := by
    intro d connection workPackage h
    obtain rfl := h.sendBufferSize
    exact wordsExact_iff_packageFits harith hR hG hS' h
  refine ⟨hiff, fun hQ => ⟨fun hall => ?_, fun hle d connection workPackage h => ?_⟩⟩
  · have hlast : OverRing S (.init cfg) ⟨0, 0, S⟩ ⟨S - 1, 0, 0, 0⟩ := overRing_last hS
    exact le_of_packageFits_last hS hQ hR hG ((hiff _ _ _ hlast).mp (hall _ _ _ hlast))
  · exact (hiff _ _ _ h).mpr (packageFits_of_le h hle)

end

/-- A package of a ring of ten bytes, in pieces of at most four. -/
theorem words_exact_iff_ten :
    let cfg : SendConfig := ⟨.uint32, 2, 2, 8, 8⟩
    WordsExact cfg (.init cfg) ⟨1, 2, 10⟩ ⟨7, 6, 5, 2⟩ := by
  intro cfg
  obtain ⟨hiff, -⟩ := @words_exact_iff cfg rfl (by decide) (by decide) 10 (by decide) (by decide)
  have h : OverRing 10 (.init cfg) ⟨1, 2, 10⟩ ⟨7, 6, 5, 2⟩ :=
    ⟨rfl, by decide, by decide, Nat.two_pow_pos 16⟩
  exact (hiff _ _ _ h).mpr (by decide)

/-- In a send buffer of `2 ^ 32 - 4096` bytes with pieces of 8192 bytes, the
position of the last byte plus the chunk limit wraps around: the only element
starts at that byte and is 8192 bytes long, which the sanity check lets pass. -/
theorem words_wrap_around :
    let cfg : SendConfig := ⟨.uint32, 8192, 1, 1, 1⟩
    let connection : Connection := ⟨1, 2, 2 ^ 32 - 4096⟩
    let workPackage : NextWorkPackage := ⟨2 ^ 32 - 4097, 1, 0, 2⟩
    ¬ WordsExact cfg (.init cfg) connection workPackage ∧
      (∃ op ∈ prepareOps cfg (.init cfg) connection workPackage, ¬ op.Exact) ∧
      ∃ r ∈ packageRequests cfg (.init cfg) connection workPackage,
        r.sgList = [⟨2 ^ 32 - 4097, 8192⟩] ∧ ¬ r.InBuffer connection.sendBufferSize ∧
          r.sendSize ≤ cfg.maxRecvBufferSize := by
  intro cfg connection workPackage
  have hops : ∃ op ∈ prepareOps cfg (.init cfg) connection workPackage, ¬ op.Exact := by decide
  obtain ⟨op, hop, hinexact⟩ := hops
  exact ⟨fun h => hinexact (h.exact op hop), ⟨op, hop, hinexact⟩, by decide⟩

/-- A chunk limit of `2 ^ 31 * 2` is zero as a word: no request makes progress. -/
example :
    let cfg : SendConfig := ⟨.uint32, 2 ^ 31, 2, 3, 3⟩
    (packageRequests cfg (.init cfg) ⟨1, 2, 16⟩ ⟨0, 5, 0, 2⟩).map SendRequest.sendSize =
      [0, 0, 0] := by
  decide

end Ibdxnet.Msgrc
