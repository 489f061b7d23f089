import Ibdxnet.Msgrc.RecvSteps
import Mathlib.Data.List.Perm.Basic

/-!
# The capacities of the receive side

The receive queue, the incoming ring buffer and the pool of work requests are tied
together by `Queues`, which says nothing of the buffer pool:

    work requests in the pool, posted, or polled and not processed: 2 * Q, each once
    posted = m_recvQueuePending ≤ Q
    live entries + G entries for each completion not processed ≤ Q * G

with `Q` the size of the receive queue and `G` the number of scatter-gather
elements.  There is one lemma for each kind of step.
-/

namespace Ibdxnet.Msgrc

open Ibdxnet.Con Sys Dx

namespace RecvWorld

/-- The buffers of the scatter-gather list of a work request. -/
def sgl (w : RecvWorld) (id : Nat) : List IbMemReg := (w.dispatcher.workRequests id).sgls.refsMemReg

/-- The completions that are polled and not yet processed. -/
def unprocessed (w : RecvWorld) : List IbvRecvWc :=
  match w.pc with
  | .refill | .refillPost _ _ => w.dispatcher.workComps
  | .process i => w.dispatcher.workComps.drop i
  | _ => []

/-- Ring buffer and work request pool hold `es` and `wrs`, every work request is
in one place, and what is left to do fits into ring buffer and work request pool. -/
structure Queues (cfg : RecvConfig) (w : RecvWorld) (es : List Entry) (wrs : List Nat) : Prop where
  fits : w.dispatcher.Fits cfg es wrs
  objects : (wrs ++ w.posted ++ w.unprocessed.map IbvRecvWc.wrId).Perm
    (List.range (cfg.ibSRQSize * 2))
  pending : w.dispatcher.recvQueuePending = w.posted.length
  posted_le : w.posted.length ≤ cfg.ibSRQSize
  refilling : ∀ n bufs, w.pc = .refillPost n bufs → n + w.posted.length = cfg.ibSRQSize
  unprocessed_le : w.unprocessed.length ≤ cfg.ibSRQSize
  capacity : es.length + w.unprocessed.length * max 1 cfg.maxSGEs ≤ cfg.ibSRQSize * cfg.maxSGEs
  maxSges : ∀ id, (w.dispatcher.workRequests id).sgls.maxSges = cfg.maxSGEs
  prepared : ∀ id ∈ w.posted, (w.sgl id).length = cfg.maxSGEs
  completions : ∀ wc ∈ w.unprocessed, wc.status = .success ∧ (w.sgl wc.wrId).length = cfg.maxSGEs

theorem init_queues (cfg : RecvConfig) :
    Queues cfg (init cfg) [] (List.range (cfg.ibSRQSize * 2)) where
  fits := RecvDispatcher.init_fits cfg
  objects := by simp [init, unprocessed]
  pending := rfl
  posted_le := Nat.zero_le _
  refilling n bufs hn := by cases hn
  unprocessed_le := Nat.zero_le _
  capacity := by simp [init, unprocessed]
  maxSges _ := rfl
  prepared _ hid := absurd hid List.not_mem_nil
  completions _ hwc := absurd hwc List.not_mem_nil

/-! ## The world after a batch, and after a post -/

/-- What the arrival of a batch changes. -/
theorem foldl_arrive_eq (cfg : RecvConfig) (arrivals : List Arrival) (w : RecvWorld) :
    arrivals.foldl (arrive cfg) w = { w with
      posted := w.posted.diff (arrivals.map Arrival.wrId)
      memory := (arrivals.foldl (arrive cfg) w).memory
      undelivered := w.undelivered ++ arrivals.flatMap fun a =>
        filledBuffers cfg (w.dispatcher.workRequests a.wrId).recvWr.sgList a.message.bytes.length
      arrived := w.arrived ++ arrivals.map Arrival.message } := by
  induction arrivals generalizing w with
  | nil => simp
  | cons a arrivals ih =>
    rw [List.foldl_cons, ih]
    simp [arrive, List.diff_cons]

section
variable {cfg : RecvConfig} {w w' : RecvWorld} {es : List Entry} {wrs : List Nat}

theorem call_ok {α : Type} {x : EStateM Exception RecvDispatcher α}
    {next : α → RecvWorld → RecvWorld} {a : α} {d : RecvDispatcher}
    (h : x.run w.dispatcher = .ok a d) :
    w.call x next = next a { w with dispatcher := d } := by
  rw [call, h]

theorem call_error {α : Type} {x : EStateM Exception RecvDispatcher α}
    {next : α → RecvWorld → RecvWorld} {e : Exception} {d : RecvDispatcher}
    (h : x.run w.dispatcher = .error e d) :
    w.call x next = { w with dispatcher := d, thrown := some e } := by
  rw [call, h]

/-- The work requests of a chain that is walked completely all get posted. -/
theorem post_eq {recvWRs : List Nat} (hlen : w.posted.length + recvWRs.length ≤ cfg.ibSRQSize)
    (hlist : ∀ id ids, recvWRs = id :: ids →
      w.dispatcher.workRequestList w.dispatcher.recvWRPool.poolSize id = recvWRs) :
    post cfg none recvWRs w = { w with
      pc := .process 0
      posted := w.posted ++ recvWRs
      dispatcher := { w.dispatcher with
        recvQueuePending := w.dispatcher.recvQueuePending + recvWRs.length } } := by
  cases recvWRs with
  | nil => simp [post]
  | cons id ids =>
    rw [post]
    simp only [hlist id ids rfl]
    rw [if_neg (by omega)]

theorem unprocessed_process {i : Nat} {wc : IbvRecvWc} (hpc : w.pc = .process i)
    (hwc : w.dispatcher.workComps[i]? = some wc) :
    w.unprocessed = wc :: w.dispatcher.workComps.drop (i + 1) := by
  rw [unprocessed, hpc]
  exact List.drop_eq_getElem?_toList_append.trans (by rw [hwc]; rfl)

theorem sgl_congr (h : w'.dispatcher.workRequests = w.dispatcher.workRequests) :
    w'.sgl = w.sgl := by
  funext id
  rw [sgl, sgl, h]

/-! ## Steps -/

namespace Queues

theorem length_objects (h : Queues cfg w es wrs) :
    wrs.length + w.posted.length + w.unprocessed.length = cfg.ibSRQSize * 2 := by
  have hlen := h.objects.length_eq
  simpa only [List.length_append, List.length_map, List.length_range] using hlen

theorem nodup_objects (h : Queues cfg w es wrs) :
    (wrs ++ w.posted ++ w.unprocessed.map IbvRecvWc.wrId).Nodup :=
  h.objects.symm.nodup List.nodup_range

theorem nodup (h : Queues cfg w es wrs) : wrs.Nodup :=
  (List.nodup_append.mp (List.nodup_append.mp h.nodup_objects).1).1

theorem usedEntries_le (h : Queues cfg w es wrs) :
    w.dispatcher.ringBuffer.usedEntries ≤ cfg.ibSRQSize * cfg.maxSGEs := by
  have hle := h.fits.ring.length_le
  rw [h.fits.ringSize] at hle
  exact h.fits.ring.usedEntries_eq ▸ hle

/-- A step that leaves work requests and completions where they are. -/
theorem congr (h : Queues cfg w es wrs) (hfits : w'.dispatcher.Fits cfg es wrs)
    (hposted : w'.posted = w.posted)
    (hpending : w'.dispatcher.recvQueuePending = w.dispatcher.recvQueuePending)
    (hworkRequests : w'.dispatcher.workRequests = w.dispatcher.workRequests)
    (hunprocessed : w'.unprocessed = w.unprocessed)
    (hrefilling : ∀ n bufs, w'.pc = .refillPost n bufs → n + w.posted.length = cfg.ibSRQSize) :
    Queues cfg w' es wrs where
  fits := hfits
  objects := by
    rw [hposted, hunprocessed]
    exact h.objects
  pending := by
    rw [hpending, hposted]
    exact h.pending
  posted_le := by
    rw [hposted]
    exact h.posted_le
  refilling := by
    rw [hposted]
    exact hrefilling
  unprocessed_le := by
    rw [hunprocessed]
    exact h.unprocessed_le
  capacity := by
    rw [hunprocessed]
    exact h.capacity
  maxSges := by
    rw [hworkRequests]
    exact h.maxSges
  prepared := by
    rw [hposted, sgl_congr hworkRequests]
    exact h.prepared
  completions := by
    rw [hunprocessed, sgl_congr hworkRequests]
    exact h.completions

theorem step_poll {arrivals : List Arrival} (h : Queues cfg w es wrs) (hpc : w.pc = .poll)
    (hlen : arrivals.length ≤ w.dispatcher.pollLimit cfg)
    (hposted : (arrivals.map Arrival.wrId).Subperm w.posted)
    (hsuccess : ∀ a ∈ arrivals, a.status = .success) :
    Queues cfg { arrivals.foldl (arrive cfg) w with
      pc := .refill
      dispatcher := { w.dispatcher with
        workComps := arrivals.map Arrival.toWc
        recvQueuePending := w.dispatcher.recvQueuePending - arrivals.length } } es wrs := by
  have hnone : w.unprocessed = [] := by rw [unprocessed, hpc]
  have hsplit : (arrivals.map Arrival.wrId ++ w.posted.diff (arrivals.map Arrival.wrId)).Perm
      w.posted :=
    List.subperm_append_diff_self_of_count_le (List.subperm_ext_iff.mp hposted)
  have hsplitlen := hsplit.length_eq
  rw [List.length_append, List.length_map] at hsplitlen
  have hlimit := h.fits.pollLimit_spec
  have hwrIds : (arrivals.map Arrival.toWc).map IbvRecvWc.wrId = arrivals.map Arrival.wrId := by
    rw [List.map_map]
    rfl
  have hobjects := h.objects
  have hpostedle := h.posted_le
  rw [hnone, List.map_nil, List.append_nil] at hobjects
  rw [foldl_arrive_eq]
  refine ⟨h.fits.of_eq rfl rfl, ?_, ?_, ?_, ?_, ?_, ?_, h.maxSges,
    fun id hid => h.prepared id (List.diff_subset _ _ hid), fun wc hwc => ?_⟩
  · simp only [unprocessed, hwrIds]
    refine List.Perm.trans ?_ hobjects
    rw [List.append_assoc]
    exact (List.perm_append_comm.trans hsplit).append_left wrs
  · change w.dispatcher.recvQueuePending - arrivals.length = (w.posted.diff _).length
    rw [h.pending]
    omega
  · change (w.posted.diff _).length ≤ _
    omega
  · intro n bufs hn
    cases hn
  · simp only [unprocessed, List.length_map]
    omega
  · simp only [unprocessed, List.length_map]
    have hmul := Nat.mul_le_mul_right (max 1 cfg.maxSGEs) hlen
    omega
  · simp only [unprocessed] at hwc
    obtain ⟨a, ha, rfl⟩ := List.mem_map.mp hwc
    exact ⟨hsuccess a ha, h.prepared a.wrId (hposted.subset (List.mem_map_of_mem ha))⟩

/-- The work requests just taken from the pool are neither posted nor completed. -/
theorem workRequests_eq {k : Nat} {f : Nat → RecvWorkRequest} (h : Queues cfg w es wrs)
    (hother : ∀ id, id ∉ wrs.take k → f id = w.dispatcher.workRequests id) :
    (∀ id ∈ w.posted, f id = w.dispatcher.workRequests id) ∧
      ∀ wc ∈ w.unprocessed, f wc.wrId = w.dispatcher.workRequests wc.wrId := by
  have hnodup := h.nodup_objects
  refine ⟨fun id hid => hother id fun hmem => ?_, fun wc hwc => hother wc.wrId fun hmem => ?_⟩
  · exact (List.nodup_append.mp (List.nodup_append.mp hnodup).1).2.2 id
      (List.mem_of_mem_take hmem) id hid rfl
  · exact (List.nodup_append.mp hnodup).2.2 wc.wrId
      (List.mem_append_left _ (List.mem_of_mem_take hmem)) wc.wrId (List.mem_map_of_mem hwc) rfl

theorem step_post {k n : Nat} {bufs : List IbMemReg} {p : RecvBufferPool}
    {q : RecvWorkRequestPool} {f : Nat → RecvWorkRequest} (h : Queues cfg w es wrs)
    (hpc : w.pc = .refillPost n bufs) (hk : k ≤ n)
    (hother : ∀ id, id ∉ wrs.take k → f id = w.dispatcher.workRequests id)
    (hmax : ∀ id, (f id).sgls.maxSges = cfg.maxSGEs)
    (hprep : ∀ id ∈ wrs.take k, (f id).sgls.refsMemReg.length = cfg.maxSGEs)
    (hfits : RecvDispatcher.Fits cfg { w.dispatcher with recvWRPool := q, workRequests := f } es
      (wrs.drop k)) :
    Queues cfg { w with
        pc := .process 0
        posted := w.posted ++ wrs.take k
        dispatcher := { w.dispatcher with
          recvBufferPool := p
          recvWRPool := q
          workRequests := f
          recvQueuePending := w.dispatcher.recvQueuePending + (wrs.take k).length } }
      es (wrs.drop k) := by
  have hunprocessed : w.unprocessed = w.dispatcher.workComps := by rw [unprocessed, hpc]
  obtain ⟨hposted, hcompleted⟩ := h.workRequests_eq hother
  have hobjects := h.objects
  have hle := h.unprocessed_le
  have hcapacity := h.capacity
  have hcompletions := h.completions
  rw [hunprocessed] at hcompleted hobjects hle hcapacity hcompletions
  have hrefilling := h.refilling n bufs hpc
  refine ⟨hfits.of_eq rfl rfl, ?_, ?_, ?_, ?_, hle, hcapacity, hmax, fun id hid => ?_,
    fun wc hwc => ?_⟩
  · refine List.Perm.trans (List.perm_iff_count.mpr fun b => ?_) hobjects
    have hcount : (wrs.take k).count b + (wrs.drop k).count b = wrs.count b := by
      rw [← List.count_append, List.take_append_drop]
    simp only [unprocessed, List.count_append, List.drop_zero]
    omega
  · change w.dispatcher.recvQueuePending + (wrs.take k).length = (w.posted ++ wrs.take k).length
    rw [List.length_append, h.pending]
  · change (w.posted ++ wrs.take k).length ≤ cfg.ibSRQSize
    rw [List.length_append, List.length_take]
    omega
  · intro m bs hm
    cases hm
  · change (f id).sgls.refsMemReg.length = _
    rcases List.mem_append.mp hid with hold | hnew
    · rw [hposted id hold]
      exact h.prepared id hold
    · exact hprep id hnew
  · change _ ∧ (f wc.wrId).sgls.refsMemReg.length = _
    have hwc' : wc ∈ w.dispatcher.workComps := hwc
    rw [hcompleted wc hwc']
    exact hcompletions wc hwc'

theorem step_process {i : Nat} {wc : IbvRecvWc} {p : RecvBufferPool} {r : IncomingRingBuffer}
    {q : RecvWorkRequestPool} {appended : List (List (Entry × List UInt8))}
    (h : Queues cfg w es wrs) (hpc : w.pc = .process i)
    (hwc : w.dispatcher.workComps[i]? = some wc)
    (hfits : RecvDispatcher.Fits cfg { w.dispatcher with
        recvBufferPool := p, ringBuffer := r, recvWRPool := q, firstWc := false }
      (es ++ completionEntries cfg wc (w.sgl wc.wrId)) (wrs ++ [wc.wrId])) :
    Queues cfg { w with
        pc := .process (i + 1)
        dispatcher := { w.dispatcher with
          recvBufferPool := p, ringBuffer := r, recvWRPool := q, firstWc := false }
        appended := appended }
      (es ++ completionEntries cfg wc (w.sgl wc.wrId)) (wrs ++ [wc.wrId]) := by
  have hunprocessed := unprocessed_process hpc hwc
  have hobjects := h.objects
  have hle := h.unprocessed_le
  have hcapacity := h.capacity
  have hcompletions := h.completions
  rw [hunprocessed] at hobjects hle hcapacity hcompletions
  have hentries := length_completionEntries_le cfg wc (w.sgl wc.wrId)
  rw [(hcompletions wc List.mem_cons_self).2] at hentries
  refine ⟨hfits, ?_, h.pending, h.posted_le, ?_, Nat.le_of_succ_le hle, ?_, h.maxSges, h.prepared,
    fun wc' hwc' => hcompletions wc' (List.mem_cons_of_mem _ hwc')⟩
  · refine List.Perm.trans (List.perm_iff_count.mpr fun b => ?_) hobjects
    simp only [unprocessed, List.count_append, List.map_cons, List.count_cons, List.count_nil]
    omega
  · intro n bufs hn
    cases hn
  · simp only [unprocessed, List.length_append]
    rw [List.length_cons, Nat.succ_mul] at hcapacity
    omega

theorem step_give {es' : List Entry} {processed : Nat} {r : IncomingRingBuffer}
    (h : Queues cfg w es wrs) (hpc : w.pc = .dispatchReceived)
    (hfits : RecvDispatcher.Fits cfg { w.dispatcher with ringBuffer := r } (es.drop processed)
      wrs) :
    Queues cfg (give es'
      { w with pc := .poll, dispatcher := { w.dispatcher with ringBuffer := r } })
      (es.drop processed) wrs := by
  have hnone : w.unprocessed = [] := by rw [unprocessed, hpc]
  have hobjects := h.objects
  have hcapacity := h.capacity
  rw [hnone] at hobjects hcapacity
  refine ⟨hfits, hobjects, h.pending, h.posted_le, fun n bufs hn => ?_, Nat.zero_le _, ?_,
    h.maxSges, h.prepared, fun wc hwc => absurd hwc List.not_mem_nil⟩
  · cases hn
  · change (es.drop processed).length + 0 * _ ≤ _
    rw [List.length_drop]
    rw [List.length_nil] at hcapacity
    omega

end Queues

end

end RecvWorld

end Ibdxnet.Msgrc
