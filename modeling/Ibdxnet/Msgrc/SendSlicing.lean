import Ibdxnet.Msgrc.SendWorkRequests

/-!
# What the work requests of a package cover

For positions inside the ring and arithmetic that does not wrap, the pieces of
`nextSlice` follow each other without gap or overlap.  With

    T = (m_posFrontRel - m_posBackRel) mod S
    M = m_recvBufferSize * GetMaxSGEs()
    Q = free places in the send queue

the scatter-gather elements of the work requests, in order, are exactly the
offsets of the first `min (Q * M) T` bytes from `m_posBackRel` on
(`flatMap_offsets_requests`), no request is longer than `M` or empty without
flow control data (`requests_bounds`), and the flow control byte is in the
first request only (`requests_fcData`).
-/

namespace Ibdxnet.Msgrc

/-- The size of the region from `posBack` up to `posFront` in a ring of size `S`. -/
def regionLength (S posBack posFront : Nat) : Nat := (posFront + S - posBack) % S

/-- The offsets into the send buffer the request covers, in order. -/
def SendRequest.offsets (r : SendRequest) : List Nat :=
  r.sgList.flatMap fun sge => List.range' sge.addr sge.length

theorem regionLength_eq {S posBack posFront : Nat} (hb : posBack < S) (hf : posFront < S) :
    regionLength S posBack posFront =
      if posBack ≤ posFront then posFront - posBack else S - posBack + posFront := by
  rw [regionLength]
  split
  · have hsub : posFront + S - posBack = posFront - posBack + S := by omega
    rw [hsub, Nat.add_mod_right, Nat.mod_eq_of_lt (by omega)]
  · rw [Nat.mod_eq_of_lt (by omega)]
    omega

theorem regionLength_lt {S posBack : Nat} (posFront : Nat) (hb : posBack < S) :
    regionLength S posBack posFront < S := Nat.mod_lt _ (by omega)

theorem regionLength_eq_zero_iff {S posBack posFront : Nat} (hb : posBack < S) (hf : posFront < S) :
    regionLength S posBack posFront = 0 ↔ posBack = posFront := by
  rw [regionLength_eq hb hf]
  split <;> omega

/-- The region left after its first `k` bytes. -/
theorem regionLength_add {S posBack posFront k : Nat} (hb : posBack < S) (hf : posFront < S)
    (hk : k ≤ regionLength S posBack posFront) :
    regionLength S ((posBack + k) % S) posFront = regionLength S posBack posFront - k := by
  have hlt := regionLength_lt posFront hb
  have hkS : k < S := by omega
  have hmod := Nat.mod_lt (posBack + k) (show 0 < S by omega)
  rcases Ring.add_mod_cases posBack hkS with ⟨h, h'⟩ | ⟨h, h'⟩
  · rw [Nat.mod_eq_of_lt hb] at h h'
    rw [regionLength_eq hb hf] at hk ⊢
    rw [h, regionLength_eq h' hf]
    split at hk <;> split <;> omega
  · rw [Nat.mod_eq_of_lt hb] at h h'
    rw [regionLength_eq hb hf] at hk ⊢
    rw [regionLength_eq (by omega) hf]
    split at hk <;> split <;> omega

section
variable {A : Arith} {N S M posBack posFront : Nat}

/-- Where the next piece ends: after `min M T` bytes. -/
theorem nextSlice_spec (hA : A.ExactBelow N) (hS : S < N) (hN : posBack + M < N)
    (hb : posBack < S) (hf : posFront < S) :
    let slice := nextSlice A S M posBack posFront
    let len := min M (regionLength S posBack posFront)
    (slice.wrapAround = false → slice.posEnd = posBack + len ∧ slice.posEnd ≤ S) ∧
      (slice.wrapAround = true → slice.posEnd + S = posBack + len ∧ slice.posEnd < S) := by
  have hadd : A.add posBack M = posBack + M := hA.add (by omega)
  have hsub : A.sub S posBack = S - posBack := hA.sub (by omega) (by omega)
  simp only [nextSlice, regionLength_eq hb hf, hadd, hsub]
  by_cases hwrap : posBack > posFront
  · rw [if_pos hwrap, if_neg (Nat.not_le.mpr hwrap)]
    have harea : A.add posFront (S - posBack) = posFront + (S - posBack) := hA.add (by omega)
    rw [harea]
    split
    · split <;> simp only [reduceCtorEq, false_implies, forall_const, and_true] <;>
        omega
    · split
      · simp only [reduceCtorEq, false_implies, forall_const, and_true]
        omega
      · have harea' : A.sub M (S - posBack) = M - (S - posBack) := hA.sub (by omega) (by omega)
        rw [harea']
        split <;> simp only [reduceCtorEq, false_implies, forall_const, true_and] <;> omega
  · rw [if_neg hwrap, if_pos (show posBack ≤ posFront by omega)]
    split <;> simp only [reduceCtorEq, false_implies, forall_const, and_true] <;> omega

end

section
variable {cfg : SendConfig} {N S M posBack posFront : Nat} {fcData : UInt8}

theorem dataRequest_fcData :
    (dataRequest cfg S posFront posBack fcData).fcData = fcData := by
  simp only [dataRequest]
  split <;> rfl

/-- The next data request: it covers the first `min M T` bytes of the region. -/
theorem dataRequest_spec (fcData : UInt8) (hA : cfg.arith.ExactBelow N)
    (hMax : cfg.maxRecvBufferSize = M) (hS : S < N) (hN : posBack + M < N)
    (hb : posBack < S) (hf : posFront < S) :
    let r := dataRequest cfg S posFront posBack fcData
    let len := min M (regionLength S posBack posFront)
    r.sendSize = len ∧ r.offsets = Ring.window id S posBack len ∧
      nextPosBack S r = (posBack + len) % S := by
  obtain ⟨hflat, hwrap⟩ := nextSlice_spec hA hS hN hb hf
  have hlen : min M (regionLength S posBack posFront) < S :=
    Nat.lt_of_le_of_lt (Nat.min_le_right _ _) (regionLength_lt posFront hb)
  simp only [dataRequest, hMax]
  generalize nextSlice cfg.arith S M posBack posFront = slice at hflat hwrap ⊢
  generalize min M (regionLength S posBack posFront) = len at hflat hwrap hlen ⊢
  cases hw : slice.wrapAround with
  | false =>
    obtain ⟨hend, hle⟩ := hflat hw
    have hsub : cfg.arith.sub slice.posEnd posBack = len := by
      rw [hA.sub (by omega) (by omega), hend]
      omega
    simp only [if_true, SendRequest.offsets, List.flatMap_cons, List.flatMap_nil, List.append_nil,
      hsub, nextPosBack, true_and]
    refine ⟨(Ring.window_id_of_le (by omega)).symm, ?_⟩
    split
    · next heq => rw [← hend, heq, Nat.mod_self]
    · rw [← hend, Nat.mod_eq_of_lt (by omega)]
  | true =>
    obtain ⟨hend, hlt⟩ := hwrap hw
    have hsub : cfg.arith.sub S posBack = S - posBack := hA.sub (by omega) (by omega)
    have hadd : cfg.arith.add (S - posBack) slice.posEnd = len := by
      rw [hA.add (by omega)]
      omega
    simp only [Bool.true_eq_false, if_false, SendRequest.offsets, List.flatMap_cons,
      List.flatMap_nil, List.append_nil, hsub, hadd, nextPosBack, true_and]
    refine ⟨?_, ?_⟩
    · have hsplit : len = (S - posBack) + slice.posEnd := by omega
      have hstart : posBack + (S - posBack) = S := by omega
      rw [hsplit, Ring.window_add, hstart, ← Ring.window_mod id S S, Nat.mod_self,
        Ring.window_id_of_le (by omega), Ring.window_id_of_le (by omega)]
    · rw [if_neg (by omega), ← hend, Nat.add_mod_right, Nat.mod_eq_of_lt hlt]

theorem requests_self (room : Nat) : requests cfg S posFront room posFront 0 = [] := by
  cases room with
  | zero => rfl
  | succ room => simp [requests]

/-- An empty region takes at most a request for the flow control data. -/
theorem requests_empty (room : Nat) (fcData : UInt8) :
    requests cfg S posFront (room + 1) posFront fcData =
      if fcData = 0 then [] else [flowControlRequest fcData] := by
  by_cases hfc : fcData = 0 <;> simp [requests, hfc]

theorem requests_succ (room : Nat) (hne : posBack ≠ posFront) :
    requests cfg S posFront (room + 1) posBack fcData =
      dataRequest cfg S posFront posBack fcData ::
        requests cfg S posFront room
          (nextPosBack S (dataRequest cfg S posFront posBack fcData)) 0 := by
  rw [requests, if_pos (Or.inl hne), if_neg (fun h => hne h.1)]
  simp only
  split
  · next hlast => rw [hlast, requests_self]
  · rfl

/-! ## Round by round -/

/-- What holds of the list the loop builds, from the rounds that build it. -/
theorem requests_induction {motive : Nat → Nat → UInt8 → List SendRequest → Prop}
    (zero : ∀ posBack fcData, motive 0 posBack fcData [])
    (empty : ∀ room, motive (room + 1) posFront 0 [])
    (flowControl : ∀ room fcData, fcData ≠ 0 →
      motive (room + 1) posFront fcData [flowControlRequest fcData])
    (data : ∀ room posBack fcData rs, posBack ≠ posFront →
      motive room (nextPosBack S (dataRequest cfg S posFront posBack fcData)) 0 rs →
      motive (room + 1) posBack fcData (dataRequest cfg S posFront posBack fcData :: rs))
    (room posBack : Nat) (fcData : UInt8) :
    motive room posBack fcData (requests cfg S posFront room posBack fcData) := by
  induction room generalizing posBack fcData with
  | zero => exact zero posBack fcData
  | succ room ih =>
    by_cases hne : posBack = posFront
    · rw [hne, requests_empty]
      by_cases hfc : fcData = 0
      · rw [if_pos hfc, hfc]
        exact empty room
      · rw [if_neg hfc]
        exact flowControl room fcData hfc
    · rw [requests_succ room hne]
      exact data room posBack fcData _ hne (ih _ 0)

/-- The request `r` takes the first bytes of a region that is not empty, and `next`
is the position behind them. -/
structure TakesPiece (M S posFront posBack next : Nat) (r : SendRequest) : Prop where
  total_pos : 0 < regionLength S posBack posFront
  sendSize : r.sendSize = min M (regionLength S posBack posFront)
  offsets : r.offsets = Ring.window id S posBack (min M (regionLength S posBack posFront))
  next_eq : next = (posBack + min M (regionLength S posBack posFront)) % S
  next_lt : next < S
  rest : regionLength S next posFront =
    regionLength S posBack posFront - min M (regionLength S posBack posFront)

theorem dataRequest_takesPiece (fcData : UInt8) (hA : cfg.arith.ExactBelow N)
    (hMax : cfg.maxRecvBufferSize = M) (hS : S < N) (hN : posBack + M < N) (hb : posBack < S)
    (hf : posFront < S) (hne : posBack ≠ posFront) :
    TakesPiece M S posFront posBack (nextPosBack S (dataRequest cfg S posFront posBack fcData))
      (dataRequest cfg S posFront posBack fcData) := by
  obtain ⟨hsize, hoff, hnext⟩ := dataRequest_spec fcData hA hMax hS hN hb hf
  refine ⟨Nat.pos_of_ne_zero fun h => hne ((regionLength_eq_zero_iff hb hf).mp h), hsize, hoff,
    hnext, ?_, ?_⟩
  · rw [hnext]
    exact Nat.mod_lt _ (by omega)
  · rw [hnext]
    exact regionLength_add hb hf (Nat.min_le_right _ _)

/-- The same for positions inside the ring: every round takes the next piece. -/
theorem requests_ring_induction (hA : cfg.arith.ExactBelow N) (hMax : cfg.maxRecvBufferSize = M)
    (hN : S + M < N) (hf : posFront < S) {motive : Nat → Nat → UInt8 → List SendRequest → Prop}
    (zero : ∀ posBack fcData, motive 0 posBack fcData [])
    (empty : ∀ room, motive (room + 1) posFront 0 [])
    (flowControl : ∀ room fcData, fcData ≠ 0 →
      motive (room + 1) posFront fcData [flowControlRequest fcData])
    (data : ∀ room posBack fcData next rs, posBack < S →
      TakesPiece M S posFront posBack next (dataRequest cfg S posFront posBack fcData) →
      motive room next 0 rs →
      motive (room + 1) posBack fcData (dataRequest cfg S posFront posBack fcData :: rs))
    (room : Nat) (fcData : UInt8) (hb : posBack < S) :
    motive room posBack fcData (requests cfg S posFront room posBack fcData) := by
  refine requests_induction
    (motive := fun room posBack fcData rs => posBack < S → motive room posBack fcData rs)
    (fun posBack fcData _ => zero posBack fcData) (fun room _ => empty room)
    (fun room fcData hfc _ => flowControl room fcData hfc) ?_ room posBack fcData hb
  intro room posBack fcData rs hne ih hb
  have hpiece := dataRequest_takesPiece fcData hA hMax (by omega) (by omega) hb hf hne
  exact data room posBack fcData _ rs hb hpiece (ih hpiece.next_lt)

/-- The requests cover the first `min (room * M) T` bytes, in order. -/
theorem flatMap_offsets_requests (hA : cfg.arith.ExactBelow N) (hMax : cfg.maxRecvBufferSize = M)
    (hN : S + M < N) (room : Nat) (hb : posBack < S) (hf : posFront < S) :
    (requests cfg S posFront room posBack fcData).flatMap SendRequest.offsets =
      Ring.window id S posBack (min (room * M) (regionLength S posBack posFront)) := by
  have hzero := (regionLength_eq_zero_iff hf hf).mpr rfl
  refine requests_ring_induction hA hMax hN hf
    (motive := fun room posBack _ rs => rs.flatMap SendRequest.offsets =
      Ring.window id S posBack (min (room * M) (regionLength S posBack posFront)))
    ?zero ?empty ?flowControl ?data room fcData hb
  case zero =>
    intro posBack _
    rw [Nat.zero_mul, Nat.zero_min]
    rfl
  case empty =>
    intro room
    rw [hzero, Nat.min_zero]
    rfl
  case flowControl =>
    intro room fcData _
    rw [hzero, Nat.min_zero]
    rfl
  case data =>
    intro room posBack fcData next rs _ hpiece ih
    have hsum : min (room * M + M) (regionLength S posBack posFront) =
        min M (regionLength S posBack posFront) +
          min (room * M) (regionLength S posBack posFront -
            min M (regionLength S posBack posFront)) := by omega
    rw [List.flatMap_cons, hpiece.offsets, ih, hpiece.rest, hpiece.next_eq, Ring.window_mod,
      Nat.succ_mul, hsum, Ring.window_add]

/-- The total of the loop is the number of bytes covered. -/
theorem foldl_addSendSize_requests (hA : cfg.arith.ExactBelow N) (hMax : cfg.maxRecvBufferSize = M)
    (hN : S + M < N) (room : Nat) (hb : posBack < S) (hf : posFront < S) {t : Nat}
    (ht : t + regionLength S posBack posFront < N) :
    (requests cfg S posFront room posBack fcData).foldl (addSendSize cfg.arith) t =
      t + min (room * M) (regionLength S posBack posFront) := by
  have hzero := (regionLength_eq_zero_iff hf hf).mpr rfl
  refine requests_ring_induction hA hMax hN hf
    (motive := fun room posBack _ rs => ∀ t, t + regionLength S posBack posFront < N →
      rs.foldl (addSendSize cfg.arith) t =
        t + min (room * M) (regionLength S posBack posFront))
    ?zero ?empty ?flowControl ?data room fcData hb t ht
  case zero =>
    intro posBack _ t _
    rw [Nat.zero_mul, Nat.zero_min]
    rfl
  case empty =>
    intro room t _
    rw [hzero, Nat.min_zero]
    rfl
  case flowControl =>
    intro room fcData _ t _
    rw [hzero, Nat.min_zero]
    rfl
  case data =>
    intro room posBack fcData next rs _ hpiece ih t ht
    have hadd : addSendSize cfg.arith t (dataRequest cfg S posFront posBack fcData) =
        t + min M (regionLength S posBack posFront) := by
      rw [addSendSize, if_neg (dataRequest_sgList_ne_nil _ _ _ _ _), hpiece.sendSize,
        hA.add (by omega)]
    have hrest := hpiece.rest
    rw [List.foldl_cons, hadd, ih _ (by omega), hrest, Nat.succ_mul]
    omega

/-- No request is longer than `M`, none is without data and flow control data, and what its
context says it sends is what its scatter-gather elements cover. -/
theorem requests_bounds (hA : cfg.arith.ExactBelow N) (hMax : cfg.maxRecvBufferSize = M)
    (hN : S + M < N) (hM : 0 < M) (room : Nat) (hb : posBack < S) (hf : posFront < S) :
    ∀ r ∈ requests cfg S posFront room posBack fcData,
      r.sendSize ≤ M ∧ (0 < r.sendSize ∨ r.fcData ≠ 0) ∧ r.offsets.length = r.sendSize := by
  refine requests_ring_induction hA hMax hN hf
    (motive := fun _ _ _ rs => ∀ r ∈ rs,
      r.sendSize ≤ M ∧ (0 < r.sendSize ∨ r.fcData ≠ 0) ∧ r.offsets.length = r.sendSize)
    ?zero ?empty ?flowControl ?data room fcData hb
  case zero =>
    intro _ _ r hr
    cases hr
  case empty =>
    intro _ r hr
    cases hr
  case flowControl =>
    intro _ fcData hfc r hr
    rw [List.mem_singleton] at hr
    subst hr
    exact ⟨Nat.zero_le _, Or.inr hfc, rfl⟩
  case data =>
    intro room posBack fcData next rs _ hpiece ih r hr
    rcases List.mem_cons.mp hr with rfl | hr
    · have hpos := hpiece.total_pos
      rw [hpiece.sendSize, hpiece.offsets, Ring.length_window]
      exact ⟨Nat.min_le_left _ _, Or.inl (by omega), rfl⟩
    · exact ih r hr

end

section
variable {cfg : SendConfig} {S posFront : Nat}

/-- Requests built without flow control data carry none. -/
theorem requests_fcData_zero (room posBack : Nat) :
    ∀ r ∈ requests cfg S posFront room posBack 0, r.fcData = 0 := by
  refine requests_induction
    (motive := fun _ _ fcData rs => fcData = 0 → ∀ r ∈ rs, r.fcData = 0)
    ?zero ?empty ?flowControl ?data room posBack 0 rfl
  case zero =>
    intro _ _ _ r hr
    cases hr
  case empty =>
    intro _ _ r hr
    cases hr
  case flowControl =>
    intro _ _ hfc h
    exact absurd h hfc
  case data =>
    intro room posBack fcData rs _ ih hfc r hr
    rcases List.mem_cons.mp hr with rfl | hr
    · rw [dataRequest_fcData, hfc]
    · exact ih rfl r hr

/-- The flow control byte is in the first request and in no other. -/
theorem requests_fcData (room posBack : Nat) (fcData : UInt8) :
    requests cfg S posFront room posBack fcData = [] ∨
      ∃ r rs, requests cfg S posFront room posBack fcData = r :: rs ∧ r.fcData = fcData ∧
        ∀ r' ∈ rs, r'.fcData = 0 := by
  cases room with
  | zero => exact Or.inl rfl
  | succ room =>
    by_cases hne : posBack = posFront
    · rw [hne, requests_empty]
      split
      · exact Or.inl rfl
      · exact Or.inr ⟨_, [], rfl, rfl, by simp⟩
    · rw [requests_succ room hne]
      exact Or.inr ⟨_, _, rfl, dataRequest_fcData, requests_fcData_zero _ _⟩

theorem length_requests_le (room posBack : Nat) (fcData : UInt8) :
    (requests cfg S posFront room posBack fcData).length ≤ room := by
  refine requests_induction (motive := fun room _ _ rs => rs.length ≤ room)
    ?zero ?empty ?flowControl ?data room posBack fcData
  case zero => exact fun _ _ => Nat.le_refl 0
  case empty => exact fun room => Nat.zero_le (room + 1)
  case flowControl => exact fun room _ _ => Nat.le_add_left 1 room
  case data => exact fun _ _ _ _ _ ih => Nat.succ_le_succ ih

/-- Every request is one of the two kinds. -/
theorem mem_requests {room posBack : Nat} {fcData : UInt8} {r : SendRequest}
    (h : r ∈ requests cfg S posFront room posBack fcData) :
    (∃ fcData', r = flowControlRequest fcData') ∨
      ∃ posBack' fcData', r = dataRequest cfg S posFront posBack' fcData' := by
  revert h
  refine requests_induction
    (motive := fun _ _ _ rs => r ∈ rs → (∃ fcData', r = flowControlRequest fcData') ∨
      ∃ posBack' fcData', r = dataRequest cfg S posFront posBack' fcData')
    ?zero ?empty ?flowControl ?data room posBack fcData
  case zero =>
    intro _ _ hr
    cases hr
  case empty =>
    intro _ hr
    cases hr
  case flowControl =>
    intro _ fcData _ hr
    exact Or.inl ⟨fcData, List.mem_singleton.mp hr⟩
  case data =>
    intro _ posBack fcData rs _ ih hr
    rcases List.mem_cons.mp hr with rfl | hr
    · exact Or.inr ⟨posBack, fcData, rfl⟩
    · exact ih hr

/-- The lengths of the scatter-gather elements of a request. -/
def SendRequest.length (r : SendRequest) : Nat := (r.sgList.map IbvSge.length).sum

/-- Adding the size of a request is adding the lengths of its elements, wrap around or not. -/
theorem addSendSize_eq (hA : cfg.arith.Lawful) {room posBack : Nat} {fcData : UInt8}
    {r : SendRequest} (h : r ∈ requests cfg S posFront room posBack fcData) (t : Nat) :
    addSendSize cfg.arith (cfg.arith.norm t) r = cfg.arith.norm (t + r.length) := by
  rcases mem_requests h with ⟨fcData', rfl⟩ | ⟨posBack', fcData', rfl⟩
  · rfl
  · rw [addSendSize, if_neg (dataRequest_sgList_ne_nil _ _ _ _ _), ← hA.norm_add]
    simp only [dataRequest, SendRequest.length]
    split
    · simp
    · simp [hA.add_add]

theorem foldl_addSendSize_eq (hA : cfg.arith.Lawful) (room posBack : Nat) (fcData : UInt8) :
    (requests cfg S posFront room posBack fcData).foldl (addSendSize cfg.arith) 0 =
      cfg.arith.norm
        ((requests cfg S posFront room posBack fcData).map SendRequest.length).sum := by
  have hfold : ∀ (rs : List SendRequest) (t : Nat),
      (∀ r ∈ rs, r ∈ requests cfg S posFront room posBack fcData) →
      rs.foldl (addSendSize cfg.arith) (cfg.arith.norm t) =
        cfg.arith.norm (t + (rs.map SendRequest.length).sum) := by
    intro rs
    induction rs with
    | nil => intro t _; rfl
    | cons r rs ih =>
      intro t h
      rw [List.foldl_cons, addSendSize_eq hA (h r List.mem_cons_self),
        ih _ fun r' hr' => h r' (List.mem_cons_of_mem r hr'), List.map_cons, List.sum_cons,
        Nat.add_assoc]
  have h := hfold _ 0 fun _ h => h
  rwa [hA.zero, Nat.zero_add] at h

end

end Ibdxnet.Msgrc
