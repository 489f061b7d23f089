import Ibdxnet.Msgrc.RecvOwnership

/-!
# What arrives is what is appended and delivered

The entries `__ProcessCompletions` appends for a completion carry the message
that completed the work request (`Carries`): their bytes are those of the
message, in order, and the immediate data is in the first of them.  The handler
is given the appended entries in order, with the bytes they stood for when they
were appended.

    arrived messages = messages of the appended entries ++ messages to process
    delivered entries ++ live entries = appended entries

Both rest on the ownership of the buffers: a message is scattered into buffers
of posted work requests only, and no live entry or unprocessed completion has
one of these.
-/

namespace Ibdxnet.Msgrc

open Ibdxnet.Con Sys Dx

/-! ## Scattered messages -/

section
variable (cfg : RecvConfig)

/-- The bytes are in the buffers, in order. -/
def Scattered (memory : IbMemReg → List UInt8) : List IbMemReg → List UInt8 → Prop
  | _, [] => True
  | [], _ :: _ => False
  | b :: bs, byte :: bytes => memory b = (byte :: bytes).take (cfg.getSizeBuffer b) ∧
      Scattered memory bs ((byte :: bytes).drop (cfg.getSizeBuffer b))

theorem scattered_nil (memory : IbMemReg → List UInt8) (bs : List IbMemReg) :
    Scattered cfg memory bs [] := by
  rw [Scattered]
  trivial

theorem scattered_cons {memory : IbMemReg → List UInt8} {b : IbMemReg} {bs : List IbMemReg}
    {bytes : List UInt8} (hne : bytes ≠ []) :
    Scattered cfg memory (b :: bs) bytes ↔ memory b = bytes.take (cfg.getSizeBuffer b) ∧
      Scattered cfg memory bs (bytes.drop (cfg.getSizeBuffer b)) := by
  cases bytes with
  | nil => exact absurd rfl hne
  | cons byte bytes => rw [Scattered]

/-- Only the buffers that are filled matter. -/
theorem Scattered.congr {memory memory' : IbMemReg → List UInt8} {bs : List IbMemReg}
    {bytes : List UInt8} (h : Scattered cfg memory bs bytes)
    (hsame : ∀ b ∈ bs, memory' b = memory b) : Scattered cfg memory' bs bytes := by
  induction bs generalizing bytes with
  | nil =>
    cases bytes with
    | nil => exact scattered_nil cfg _ _
    | cons byte bytes => exact absurd h id
  | cons b bs ih =>
    by_cases hne : bytes = []
    · rw [hne]
      exact scattered_nil cfg _ _
    · rw [scattered_cons cfg hne] at h ⊢
      rw [hsame b List.mem_cons_self]
      exact ⟨h.1, ih h.2 fun b' hb' => hsame b' (List.mem_cons_of_mem b hb')⟩

theorem scatter_of_notMem (memory : IbMemReg → List UInt8) {bs : List IbMemReg} {b : IbMemReg}
    (hb : b ∉ bs) (bytes : List UInt8) : scatter cfg memory bs bytes b = memory b := by
  induction bs generalizing memory bytes with
  | nil => rfl
  | cons b' bs ih =>
    rw [List.mem_cons, not_or] at hb
    rw [scatter]
    split
    · rfl
    · rw [ih _ hb.2, Function.update_of_ne hb.1]

/-- A message that fits is in its buffers. -/
theorem scattered_scatter (memory : IbMemReg → List UInt8) {bs : List IbMemReg} (hbs : bs.Nodup)
    {bytes : List UInt8} (hlen : bytes.length ≤ (bs.map cfg.getSizeBuffer).sum) :
    Scattered cfg (scatter cfg memory bs bytes) bs bytes := by
  induction bs generalizing memory bytes with
  | nil =>
    rw [List.map_nil, List.sum_nil, Nat.le_zero, List.length_eq_zero_iff] at hlen
    rw [hlen]
    exact scattered_nil cfg _ _
  | cons b bs ih =>
    obtain ⟨hb, hbs'⟩ := List.nodup_cons.mp hbs
    rw [List.map_cons, List.sum_cons] at hlen
    by_cases hne : bytes = []
    · rw [hne]
      exact scattered_nil cfg _ _
    · rw [scattered_cons cfg hne, scatter, if_neg hne]
      refine ⟨?_, ih _ hbs' (by rw [List.length_drop]; omega)⟩
      rw [scatter_of_notMem cfg _ hb, Function.update_self]

/-- A batch of messages over disjoint buffers. -/
theorem scattered_foldl (l : List (List IbMemReg × List UInt8)) (memory : IbMemReg → List UInt8)
    (hnodup : (l.flatMap Prod.fst).Nodup)
    (hlen : ∀ x ∈ l, x.2.length ≤ (x.1.map cfg.getSizeBuffer).sum) :
    let memory' := l.foldl (fun memory x => scatter cfg memory x.1 x.2) memory
    (∀ x ∈ l, Scattered cfg memory' x.1 x.2) ∧
      ∀ b, b ∉ l.flatMap Prod.fst → memory' b = memory b := by
  induction l generalizing memory with
  | nil => exact ⟨fun x hx => absurd hx List.not_mem_nil, fun b _ => rfl⟩
  | cons x l ih =>
    rw [List.flatMap_cons] at hnodup
    obtain ⟨hx, hl, hdisjoint⟩ := List.nodup_append.mp hnodup
    obtain ⟨hscattered, hother⟩ := ih (scatter cfg memory x.1 x.2) hl
      fun y hy => hlen y (List.mem_cons_of_mem x hy)
    refine ⟨fun y hy => ?_, fun b hb => ?_⟩
    · rcases List.mem_cons.mp hy with rfl | hy
      · refine (scattered_scatter cfg memory hx (hlen y List.mem_cons_self)).congr cfg
          fun b hb => hother b fun hb' => hdisjoint b hb b hb' rfl
      · exact hscattered y hy
    · rw [List.flatMap_cons, List.mem_append, not_or] at hb
      exact (hother b hb.2).trans (scatter_of_notMem cfg memory hb.1 x.2)

end

/-! ## Entries of a message -/

/-- The entries, each with its bytes, are those of the message: its bytes in
order, its source, and its flow control data once. -/
structure Carries (m : Message) (group : List (Entry × List UInt8)) : Prop where
  bytes : group.flatMap Prod.snd = m.bytes
  dataLength : ∀ e ∈ group, e.2.length = e.1.dataLength
  sourceNodeId : ∀ e ∈ group, e.1.sourceNodeId = m.immData.sourceNodeId
  fcData : ∃ e es, group = e :: es ∧ e.1.fcData = m.immData.flowControlData ∧
    ∀ e' ∈ es, e'.1.fcData = 0

section
variable {cfg : RecvConfig} {memory : IbMemReg → List UInt8}

variable (cfg) in
theorem dataEntries_source (immData : ImmediateData) (n : Nat) (bs : List IbMemReg) :
    ∀ e ∈ dataEntries cfg immData n bs, e.sourceNodeId = immData.sourceNodeId := by
  induction bs generalizing immData n with
  | nil => intro e he; cases he
  | cons b bs ih =>
    intro e he
    rw [dataEntries] at he
    rcases List.mem_cons.mp he with rfl | he
    · rfl
    · split at he
      · cases he
      · exact ih { immData with flowControlData := 0 } _ e he

variable (cfg) in
theorem dataEntries_fcData_zero (source : NodeId) (n : Nat) (bs : List IbMemReg) :
    ∀ e ∈ dataEntries cfg ⟨source, 0⟩ n bs, e.fcData = 0 := by
  induction bs generalizing n with
  | nil => intro e he; cases he
  | cons b bs ih =>
    intro e he
    rw [dataEntries] at he
    rcases List.mem_cons.mp he with rfl | he
    · rfl
    · split at he
      · cases he
      · exact ih _ e he

theorem bytes_dataEntry (immData : ImmediateData) {b : IbMemReg} {bytes : List UInt8}
    (hb : memory b = bytes.take (cfg.getSizeBuffer b)) :
    (RecvDispatcher.dataEntry cfg immData b (min bytes.length (cfg.getSizeBuffer b))).bytes memory =
      bytes.take (cfg.getSizeBuffer b) := by
  change (memory b).take (min bytes.length (cfg.getSizeBuffer b)) = _
  rw [hb, List.take_take]
  rcases Nat.le_total bytes.length (cfg.getSizeBuffer b) with h | h
  · rw [Nat.min_eq_left h, Nat.min_eq_left h, List.take_length, List.take_of_length_le h]
  · rw [Nat.min_eq_right h, Nat.min_self]

/-- The entries of scattered data read it back. -/
theorem flatMap_bytes_dataEntries (immData : ImmediateData) {bs : List IbMemReg}
    {bytes : List UInt8} (hne : bytes ≠ []) (h : Scattered cfg memory bs bytes) :
    (dataEntries cfg immData bytes.length bs).flatMap (Entry.bytes memory) = bytes ∧
      ∀ e ∈ dataEntries cfg immData bytes.length bs, (e.bytes memory).length = e.dataLength := by
  induction bs generalizing immData bytes with
  | nil =>
    cases bytes with
    | nil => exact absurd rfl hne
    | cons byte bytes => exact absurd h id
  | cons b bs ih =>
    rw [scattered_cons cfg hne] at h
    have hhead := bytes_dataEntry immData h.1
    rw [dataEntries]
    by_cases hle : bytes.length ≤ cfg.getSizeBuffer b
    · rw [if_pos hle]
      refine ⟨?_, fun e he => ?_⟩
      · rw [List.flatMap_cons, hhead, List.flatMap_nil, List.append_nil, List.take_of_length_le hle]
      · rw [List.mem_singleton.mp he, hhead, List.length_take, Nat.min_comm]
        rfl
    · rw [if_neg hle]
      have hrest : bytes.drop (cfg.getSizeBuffer b) ≠ [] := by
        rw [ne_eq, List.drop_eq_nil_iff]
        exact hle
      have hih := ih { immData with flowControlData := 0 } hrest h.2
      rw [List.length_drop] at hih
      refine ⟨?_, fun e he => ?_⟩
      · rw [List.flatMap_cons, hhead, hih.1, List.take_append_drop]
      · rcases List.mem_cons.mp he with rfl | he
        · rw [hhead, List.length_take, Nat.min_comm]
          rfl
        · exact hih.2 e he

/-- What `__ProcessCompletions` appends carries the message. -/
theorem carries_completionEntries {m : Message} {wc : IbvRecvWc} {bs : List IbMemReg}
    (hlen : wc.byteLen = m.bytes.length) (himm : wc.immData = m.immData)
    (h : Scattered cfg memory bs m.bytes) :
    Carries m ((completionEntries cfg wc bs).map fun e => (e, e.bytes memory)) := by
  by_cases hnil : m.bytes = []
  · have hentries : completionEntries cfg wc bs = [RecvDispatcher.fcEntry m.immData] := by
      rw [completionEntries, hlen, hnil, himm]
      rfl
    rw [hentries]
    exact ⟨by rw [hnil]; rfl, by simp [RecvDispatcher.fcEntry, Entry.bytes],
      by simp [RecvDispatcher.fcEntry], _, [], rfl, rfl, by simp⟩
  · have hentries : completionEntries cfg wc bs = dataEntries cfg m.immData m.bytes.length bs := by
      rw [completionEntries, if_neg (by rw [hlen]; exact mt List.length_eq_zero_iff.mp hnil), hlen,
        himm]
    obtain ⟨hbytes, hdataLength⟩ := flatMap_bytes_dataEntries m.immData hnil h
    rw [hentries]
    refine ⟨?_, ?_, ?_, ?_⟩
    · rw [List.flatMap_map]
      exact hbytes
    · simpa using hdataLength
    · simpa using dataEntries_source cfg m.immData m.bytes.length bs
    · cases bs with
      | nil =>
        cases hm : m.bytes with
        | nil => exact absurd hm hnil
        | cons byte bytes => rw [hm] at h; exact absurd h id
      | cons b bs =>
        rw [dataEntries]
        refine ⟨_, _, rfl, rfl, ?_⟩
        split
        · simp
        · simpa using dataEntries_fcData_zero cfg m.immData.sourceNodeId _ bs

end

/-! ## Entries of several messages -/

section
variable {messages : List Message} {groups : List (List (Entry × List UInt8))}

theorem flatten_bytes (h : List.Forall₂ Carries messages groups) :
    groups.flatten.flatMap Prod.snd = messages.flatMap Message.bytes := by
  induction h with
  | nil => rfl
  | cons hcarries _ ih =>
    rw [List.flatten_cons, List.flatMap_append, List.flatMap_cons, hcarries.bytes, ih]

theorem flatten_entry (h : List.Forall₂ Carries messages groups) :
    ∀ e ∈ groups.flatten, e.2.length = e.1.dataLength ∧
      ∃ m ∈ messages, e.1.sourceNodeId = m.immData.sourceNodeId := by
  induction h with
  | nil => intro e he; cases he
  | cons hcarries _ ih =>
    intro e he
    rw [List.flatten_cons] at he
    rcases List.mem_append.mp he with he | he
    · exact ⟨hcarries.dataLength e he, _, List.mem_cons_self, hcarries.sourceNodeId e he⟩
    · obtain ⟨hlen, m, hm, hsource⟩ := ih e he
      exact ⟨hlen, m, List.mem_cons_of_mem _ hm, hsource⟩

/-- The flow control data of a message shows in one entry only. -/
theorem flatten_fcData (h : List.Forall₂ Carries messages groups) :
    (groups.flatten.map fun e => e.1.fcData).filter (· ≠ 0) =
      (messages.map fun m => m.immData.flowControlData).filter (· ≠ 0) := by
  induction h with
  | nil => rfl
  | cons hcarries _ ih =>
    obtain ⟨e, es, rfl, he, hzero⟩ := hcarries.fcData
    have hrest : (es.map fun e => e.1.fcData).filter (· ≠ 0) = [] := by
      rw [List.filter_eq_nil_iff]
      intro x hx
      obtain ⟨e', he', rfl⟩ := List.mem_map.mp hx
      simp [hzero e' he']
    rw [List.flatten_cons, List.map_append, List.filter_append, ih, List.map_cons, List.map_cons,
      List.filter_cons, hrest, List.filter_cons, he]
    split <;> rfl

end

/-! ## The invariant -/

namespace RecvWorld

/-- The completion is that of the message, which is in the buffers of its work request. -/
def Awaits (cfg : RecvConfig) (w : RecvWorld) (m : Message) (wc : IbvRecvWc) : Prop :=
  wc.byteLen = m.bytes.length ∧ wc.immData = m.immData ∧
    Scattered cfg w.memory (w.sgl wc.wrId) m.bytes

/-- The arrived messages are appended or waiting to be, in order; the appended
entries are delivered or live, in order and with their bytes unchanged. -/
structure Flow (cfg : RecvConfig) (w : RecvWorld) (es : List Entry) : Prop where
  arrived : ∃ done rest, w.arrived = done ++ rest ∧ List.Forall₂ Carries done w.appended ∧
    List.Forall₂ (w.Awaits cfg) rest w.unprocessed
  delivered : w.delivered ++ w.withBytes es = w.appended.flatten

theorem init_flow (cfg : RecvConfig) : Flow cfg (init cfg) [] where
  arrived := ⟨[], [], rfl, .nil, .nil⟩
  delivered := rfl

/-- The memory after a batch of messages. -/
theorem memory_foldl_arrive (cfg : RecvConfig) (arrivals : List Arrival) (w : RecvWorld) :
    (arrivals.foldl (arrive cfg) w).memory =
      (arrivals.map fun a => ((w.dispatcher.workRequests a.wrId).recvWr.sgList,
        a.message.bytes)).foldl (fun memory x => scatter cfg memory x.1 x.2) w.memory := by
  induction arrivals generalizing w with
  | nil => rfl
  | cons a arrivals ih =>
    rw [List.foldl_cons, ih, List.map_cons, List.foldl_cons]
    rfl

section
variable {cfg : RecvConfig} {w w' : RecvWorld} {pool pool' : List IbMemReg} {es es' : List Entry}
  {wrs wrs' : List Nat}

/-- No step but `poll` writes memory; one that also leaves the lists of the
unprocessed completions alone changes nothing for them. -/
theorem Flow.congr (h : Flow cfg w es) (harrived : w'.arrived = w.arrived)
    (happended : w'.appended = w.appended) (hdelivered : w'.delivered = w.delivered)
    (hmemory : w'.memory = w.memory) (hunprocessed : w'.unprocessed = w.unprocessed)
    (hsgl : ∀ wc ∈ w.unprocessed, w'.sgl wc.wrId = w.sgl wc.wrId) : Flow cfg w' es where
  arrived := by
    obtain ⟨done, rest, hsplit, hdone, hrest⟩ := h.arrived
    refine ⟨done, rest, by rw [harrived, hsplit], by rw [happended]; exact hdone, ?_⟩
    rw [hunprocessed]
    refine List.Forall₂.imp (fun m wc hmwc => hmwc) ?_
    refine List.forall₂_iff_get.mpr ⟨hrest.length_eq, fun i h₁ h₂ => ?_⟩
    obtain ⟨hlen, himm, hscattered⟩ := (List.forall₂_iff_get.mp hrest).2 i h₁ h₂
    refine ⟨hlen, himm, ?_⟩
    rw [hmemory, hsgl _ (List.get_mem _ _)]
    exact hscattered
  delivered := by
    rw [hdelivered, happended, withBytes, hmemory]
    exact h.delivered

theorem Flow.step_poll {arrivals : List Arrival} (hc : Custody cfg w pool es wrs)
    (h : Flow cfg w es) (hpc : w.pc = .poll)
    (hposted : (arrivals.map Arrival.wrId).Subperm w.posted)
    (ha : Admissible cfg w (.poll (some arrivals))) :
    Flow cfg { arrivals.foldl (arrive cfg) w with
      pc := .refill
      dispatcher := { w.dispatcher with
        workComps := arrivals.map Arrival.toWc
        recvQueuePending := w.dispatcher.recvQueuePending - arrivals.length } } es := by
  have hnone : w.unprocessed = [] := by rw [unprocessed, hpc]
  have hmem : ∀ a ∈ arrivals, a.wrId ∈ w.posted := fun a ha =>
    hposted.subset (List.mem_map_of_mem ha)
  have hsgList : ∀ a ∈ arrivals, (w.dispatcher.workRequests a.wrId).recvWr.sgList = w.sgl a.wrId :=
    fun a haa => (hc.prepared a.wrId (hmem a haa)).1
  have hbuffers : (arrivals.map fun a => ((w.dispatcher.workRequests a.wrId).recvWr.sgList,
      a.message.bytes)).flatMap Prod.fst = (arrivals.map Arrival.wrId).flatMap w.sgl := by
    rw [List.flatMap_map, List.flatMap_map]
    exact List.flatMap_congr hsgList
  -- the buffers of the batch are posted ones, so all different and not those of live entries
  have hnodup : (w.places pool es).Nodup := hc.buffers.symm.nodup List.nodup_range
  simp only [places, hnone, List.flatMap_nil, List.append_nil, List.append_assoc] at hnodup
  have hpostedNodup := List.nodup_append.mp
    (List.nodup_append.mp (List.nodup_append.mp hnodup).2.1).2.1
  have hbatch : ((arrivals.map Arrival.wrId).flatMap w.sgl ++
      (w.posted.diff (arrivals.map Arrival.wrId)).flatMap w.sgl).Perm (w.posted.flatMap w.sgl) := by
    rw [← List.flatMap_append]
    exact (List.subperm_append_diff_self_of_count_le
      (List.subperm_ext_iff.mp hposted)).flatMap_right w.sgl
  have hbatchNodup : ((arrivals.map Arrival.wrId).flatMap w.sgl).Nodup :=
    (List.nodup_append.mp (hbatch.nodup_iff.mpr hpostedNodup.1)).1
  obtain ⟨hscattered, hother⟩ := scattered_foldl cfg
    (arrivals.map fun a => ((w.dispatcher.workRequests a.wrId).recvWr.sgList, a.message.bytes))
    w.memory (by rw [hbuffers]; exact hbatchNodup) (by
      intro x hx
      obtain ⟨a, haa, rfl⟩ := List.mem_map.mp hx
      simp only [hsgList a haa]
      exact (ha a haa).2.1)
  rw [← memory_foldl_arrive] at hscattered hother
  rw [hbuffers] at hother
  rw [foldl_arrive_eq]
  refine ⟨?_, ?_⟩
  · obtain ⟨done, rest, hsplit, hdone, hrest⟩ := h.arrived
    rw [hnone, List.forall₂_nil_right_iff] at hrest
    subst hrest
    rw [List.append_nil] at hsplit
    refine ⟨done, arrivals.map Arrival.message, by rw [hsplit], hdone, ?_⟩
    rw [unprocessed, List.forall₂_map_left_iff, List.forall₂_map_right_iff, List.forall₂_same]
    intro a haa
    refine ⟨rfl, rfl, ?_⟩
    have hsc := hscattered _ (List.mem_map_of_mem haa)
    rw [hsgList a haa] at hsc
    exact hsc
  · rw [← h.delivered]
    congr 1
    apply List.map_congr_left
    intro e he
    congr 1
    rw [Entry.bytes, Entry.bytes]
    cases hdata : e.data with
    | none => rfl
    | some b =>
      have hlive : b ∈ es.filterMap Entry.data ++ w.handler :=
        List.mem_append_left _ (List.mem_filterMap.mpr ⟨e, he, hdata⟩)
      have hb : b ∉ (arrivals.map Arrival.wrId).flatMap w.sgl := fun hb =>
        hpostedNodup.2.2 b (hbatch.subset (List.mem_append_left _ hb)) b hlive rfl
      exact congrArg (List.take e.dataLength) (hother b hb)

theorem Flow.step_process {i : Nat} {wc : IbvRecvWc} {d : RecvDispatcher} (h : Flow cfg w es)
    (hpc : w.pc = .process i) (hwc : w.dispatcher.workComps[i]? = some wc)
    (hworkComps : d.workComps = w.dispatcher.workComps)
    (hworkRequests : d.workRequests = w.dispatcher.workRequests) :
    Flow cfg { w with
        pc := .process (i + 1)
        dispatcher := d
        appended := w.appended ++ [w.withBytes (completionEntries cfg wc (w.sgl wc.wrId))] }
      (es ++ completionEntries cfg wc (w.sgl wc.wrId)) := by
  have hunprocessed := unprocessed_process hpc hwc
  refine ⟨?_, ?_⟩
  · obtain ⟨done, rest, hsplit, hdone, hrest⟩ := h.arrived
    rw [hunprocessed, List.forall₂_cons_right_iff] at hrest
    obtain ⟨m, rest', hm, hrest', rfl⟩ := hrest
    refine ⟨done ++ [m], rest', by rw [hsplit, List.append_assoc]; rfl, ?_, ?_⟩
    · refine List.rel_append hdone (.cons ?_ .nil)
      exact carries_completionEntries hm.1 hm.2.1 hm.2.2
    · rw [unprocessed, hworkComps]
      refine hrest'.imp fun m' wc' h' => ⟨h'.1, h'.2.1, ?_⟩
      have hsgl : sgl { w with
          pc := .process (i + 1)
          dispatcher := d
          appended := w.appended ++
            [w.withBytes (completionEntries cfg wc (w.sgl wc.wrId))] } wc'.wrId =
          w.sgl wc'.wrId :=
        congrArg (fun f => (f wc'.wrId).sgls.refsMemReg) hworkRequests
      rw [hsgl]
      exact h'.2.2
  · simp only [withBytes, List.map_append, List.flatten_append, List.flatten_singleton]
    rw [← List.append_assoc, ← h.delivered]
    rfl

/-- Every step keeps the invariant. -/
theorem Flow.step (hc : Custody cfg w pool es wrs) (h : Flow cfg w es)
    (hmoves : Moves cfg w pool es wrs w' pool' es' wrs') : Flow cfg w' es' := by
  cases hmoves with
  | poll arrivals hpc hlen hposted ha => exact h.step_poll hc hpc hposted ha
  | queueFull hpc =>
    exact h.congr rfl rfl rfl rfl (by rw [unprocessed, unprocessed, hpc]; rfl) fun _ _ => rfl
  | getBuffers k p hpc hpending hk =>
    exact h.congr rfl rfl rfl rfl (by rw [unprocessed, unprocessed, hpc]) fun _ _ => rfl
  | post k n bufs p q f hpc hk hkbufs hother hmax hprep hbufs =>
    refine h.congr rfl rfl rfl rfl (by rw [unprocessed, unprocessed, hpc]; rfl) fun wc hwc => ?_
    exact congrArg (fun wr => wr.sgls.refsMemReg) ((hc.queues.workRequests_eq hother).2 wc hwc)
  | process i wc p r q hpc hwc => exact h.step_process hpc hwc rfl rfl
  | processed i hpc hi =>
    refine h.congr rfl rfl rfl rfl ?_ fun _ _ => rfl
    rw [unprocessed, unprocessed, hpc]
    exact (List.drop_eq_nil_of_le hi).symm
  | ringEmpty hpc _ =>
    exact h.congr rfl rfl rfl rfl (by rw [unprocessed, unprocessed, hpc]) fun _ _ => rfl
  | give processed r hpc hle =>
    refine ⟨?_, ?_⟩
    · have hunprocessed : w.unprocessed = [] := by rw [unprocessed, hpc]
      obtain ⟨done, rest, hsplit, hdone, hrest⟩ := h.arrived
      rw [hunprocessed, List.forall₂_nil_right_iff] at hrest
      exact ⟨done, rest, hsplit, hdone, by rw [hrest]; exact .nil⟩
    · change w.delivered ++ w.withBytes (es.take processed) ++ w.withBytes (es.drop processed) =
        w.appended.flatten
      rw [← h.delivered, List.append_assoc]
      simp only [withBytes, ← List.map_append, List.take_append_drop]
  | returnBuffers bs p hbs => exact h.congr rfl rfl rfl rfl rfl fun _ _ => rfl

end

end RecvWorld

end Ibdxnet.Msgrc
