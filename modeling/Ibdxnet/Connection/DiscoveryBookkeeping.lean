import Ibdxnet.Connection.ExchangeManager
import Ibdxnet.Lib.Sums
import Mathlib.Data.FinEnum

/-!
# Where the entries of the discovery are

Every entry the discovery manager accepted, from the node configuration or by
`AddNode`, is to be found in `m_infoToGet` or in a slot of `m_nodeInfo`.

    accepted = m_infoToGet + the slots of m_nodeInfo     as multisets

A discovered job stores the entry it finds under the node id the remote claims.
The entry that was in this slot is overwritten:

    every entry is in one place  ↔  every slot that is filled was free
-/

namespace Ibdxnet.Con

/-- The discovery manager with the entries it accepted so far. -/
structure Discovery where
  manager : DiscoveryManager
  accepted : List Entry

namespace Discovery

variable (ownHostname : String)

inductive Action
  | addNode (entry : Entry)
  /-- a discovered job is executed -/
  | discovered (targetIPV4 : UInt32) (nodeIdDiscovered : NodeId)
  /-- a discovered node is invalidated -/
  | invalidate (nodeId : NodeId)
  deriving DecidableEq, Repr

def new (nodeConf : List Entry) : Discovery where
  manager := .new ownHostname nodeConf
  accepted := nodeConf.filter fun entry => entry.hostname ≠ ownHostname

/-- One call.  Node ids are valid: each is that of a slot. -/
def step (w : Discovery) : Action → Option Discovery
  | .addNode entry =>
    some
      { manager := w.manager.addNode ownHostname entry
        accepted :=
          if entry.hostname ≠ ownHostname then w.accepted ++ [entry] else w.accepted }
  | .discovered targetIPV4 nodeIdDiscovered =>
    if ExchangeManager.InRange nodeIdDiscovered then
      (w.manager.discovered targetIPV4 nodeIdDiscovered).map fun manager => { w with manager }
    else
      none
  | .invalidate nodeId =>
    if (w.manager.nodeInfo nodeId).isSome then
      some { w with manager := w.manager.invalidate nodeId }
    else
      none

/-- The slots that hold `entry`. -/
def slots (w : Discovery) (entry : Entry) : Nat :=
  ∑ nodeId, if w.manager.nodeInfo nodeId = some entry then 1 else 0

/-- Every accepted entry is in one place: once in the list, or in one slot. -/
def Partitioned (w : Discovery) : Prop :=
  ∀ entry, w.accepted.count entry = w.manager.infoToGet.count (some entry) + w.slots entry

/-- A discovered job that finds an entry finds the slot free. -/
def SlotFree (w : Discovery) : Action → Prop
  | .discovered targetIPV4 nodeIdDiscovered =>
    (∃ entry, some entry ∈ w.manager.infoToGet ∧ entry.address = targetIPV4) →
      w.manager.nodeInfo nodeIdDiscovered = none
  | _ => True

variable {ownHostname : String} {w w' : Discovery} {a : Action}

/-- The entries are in one place each, and no null pointer is in the list. -/
structure Kept (w : Discovery) : Prop where
  partitioned : w.Partitioned
  listed : none ∉ w.manager.infoToGet

theorem kept_new (nodeConf : List Entry) : (new ownHostname nodeConf).Kept where
  partitioned entry := by
    have hslots : (new ownHostname nodeConf).slots entry = 0 :=
      Finset.sum_eq_zero fun nodeId _ => if_neg (by simp [new, DiscoveryManager.new])
    rw [hslots, Nat.add_zero]
    exact (List.count_map_of_injective _ _ (Option.some_injective _) entry).symm
  listed := by simp [new, DiscoveryManager.new]

/-- The slots when one of them is written. -/
theorem slots_update {d : DiscoveryManager} {nodeId : NodeId} {v : Option Entry}
    (h : d.nodeInfo = Function.update w.manager.nodeInfo nodeId v) (entry : Entry) :
    ({ w with manager := d } : Discovery).slots entry +
        (if w.manager.nodeInfo nodeId = some entry then 1 else 0) =
      w.slots entry + if v = some entry then 1 else 0 := by
  unfold slots
  rw [h]
  exact Sums.sum_update (fun o : Option Entry => if o = some entry then 1 else 0)
    w.manager.nodeInfo nodeId v

/-- What a discovered job does: nothing, or an entry goes from the list to the
slot. -/
theorem discovered_cases (hlisted : none ∉ w.manager.infoToGet) (targetIPV4 : UInt32)
    (nodeId : NodeId) :
    w.manager.discovered targetIPV4 nodeId = some w.manager ∧
        (∀ entry, some entry ∈ w.manager.infoToGet → entry.address ≠ targetIPV4) ∨
      ∃ entry rest, w.manager.discovered targetIPV4 nodeId = some
          { infoToGet := rest
            nodeInfo := Function.update w.manager.nodeInfo nodeId (some entry) } ∧
        some entry ∈ w.manager.infoToGet ∧ entry.address = targetIPV4 ∧
        w.manager.infoToGet.Perm (some entry :: rest) ∧ none ∉ rest := by
  unfold DiscoveryManager.discovered
  rcases DiscoveryManager.takeEntry_spec targetIPV4 hlisted with
    ⟨htake, hne⟩ | ⟨entry, rest, htake, hmem, haddress, hrest⟩
  · exact Or.inl ⟨by rw [htake], hne⟩
  · exact Or.inr ⟨entry, rest, by rw [htake], hmem, haddress,
      DiscoveryManager.perm_of_takeEntry htake, hrest⟩

theorem Kept.addNode (h : w.Kept) (entry : Entry)
    (hs : step ownHostname w (.addNode entry) = some w') : w'.Kept := by
  obtain rfl := Option.some.inj hs
  unfold DiscoveryManager.addNode
  split
  · constructor
    · intro e
      have hcount := h.partitioned e
      change _ = _ + w.slots e
      simp only [List.count_append, List.count_singleton, Option.some_beq_some, beq_iff_eq]
      omega
    · simp [h.listed]
  · exact ⟨h.partitioned, h.listed⟩

/-- The entry of a node that is invalidated goes back to the list. -/
theorem Kept.invalidated (h : w.Kept) {nodeId : NodeId} {entry : Entry}
    (hentry : w.manager.nodeInfo nodeId = some entry) :
    ({ w with manager := w.manager.invalidate nodeId } : Discovery).Kept where
  partitioned e := by
    have hcount := h.partitioned e
    have hslots := slots_update (w := w) (d := w.manager.invalidate nodeId) rfl e
    simp only [DiscoveryManager.invalidate, hentry, List.count_append, List.count_singleton,
      Option.some_beq_some, reduceCtorEq, if_false] at hslots ⊢
    simp only [Option.some.injEq, beq_iff_eq] at hslots ⊢
    omega
  listed := by simp [DiscoveryManager.invalidate, hentry, h.listed]

theorem Kept.invalidate (h : w.Kept) {nodeId : NodeId}
    (hs : step ownHostname w (.invalidate nodeId) = some w') : w'.Kept := by
  simp only [step] at hs
  split at hs
  · next hsome =>
    obtain rfl := Option.some.inj hs
    obtain ⟨entry, hentry⟩ := Option.isSome_iff_exists.mp hsome
    exact h.invalidated hentry
  · cases hs

/-- An entry that goes to a slot leaves the list, and what was in the slot is
nowhere any more. -/
theorem count_discovered (h : w.Kept) (nodeId : NodeId) {entry : Entry}
    {rest : List (Option Entry)} (hperm : w.manager.infoToGet.Perm (some entry :: rest))
    (e : Entry) :
    rest.count (some e) + ({ w with manager :=
        { infoToGet := rest
          nodeInfo := Function.update w.manager.nodeInfo nodeId (some entry) } } :
        Discovery).slots e + (if w.manager.nodeInfo nodeId = some e then 1 else 0) =
      w.accepted.count e := by
  have hcount := h.partitioned e
  have hslots := slots_update (w := w) (d :=
    { infoToGet := rest
      nodeInfo := Function.update w.manager.nodeInfo nodeId (some entry) }) rfl e
  rw [hperm.count_eq, List.count_cons] at hcount
  simp only [Option.some_beq_some, beq_iff_eq] at hcount
  simp only [Option.some.injEq] at hslots
  omega

theorem Kept.discovered (h : w.Kept) {targetIPV4 : UInt32} {nodeId : NodeId}
    (hfree : w.SlotFree (.discovered targetIPV4 nodeId))
    (hs : step ownHostname w (.discovered targetIPV4 nodeId) = some w') : w'.Kept := by
  simp only [step] at hs
  split at hs
  · obtain ⟨d, hd, rfl⟩ := Option.map_eq_some_iff.mp hs
    rcases discovered_cases h.listed targetIPV4 nodeId with
      ⟨hnone, -⟩ | ⟨entry, rest, hfound, hmem, haddress, hperm, hrest⟩
    · obtain rfl := Option.some.inj (hnone.symm.trans hd)
      exact h
    · obtain rfl := Option.some.inj (hfound.symm.trans hd)
      refine ⟨fun e => ?_, hrest⟩
      have hcount := count_discovered h nodeId hperm e
      rw [hfree ⟨entry, hmem, haddress⟩, if_neg (by simp), Nat.add_zero] at hcount
      exact hcount.symm
  · cases hs

/-- A node that is invalidated is found again under its address. -/
def Rediscovers (w : Discovery) : Prop :=
  ∀ nodeId entry, w.manager.nodeInfo nodeId = some entry → ∀ nodeIdDiscovered,
    ∃ d found, (w.manager.invalidate nodeId).discovered entry.address nodeIdDiscovered = some d ∧
      d.nodeInfo nodeIdDiscovered = some found ∧ found.address = entry.address

theorem Kept.rediscovers (h : w.Kept) : w.Rediscovers := by
  intro nodeId entry hentry nodeIdDiscovered
  rcases discovered_cases (h.invalidated hentry).listed entry.address nodeIdDiscovered with
    ⟨-, hne⟩ | ⟨found, rest, hfound, -, haddress, -⟩
  · exact absurd rfl (hne entry (by simp [DiscoveryManager.invalidate, hentry]))
  · exact ⟨_, found, hfound, Function.update_self .., haddress⟩

theorem Kept.step (h : w.Kept) (hfree : w.SlotFree a) (hs : step ownHostname w a = some w') :
    w'.Kept := by
  cases a with
  | addNode entry => exact h.addNode entry hs
  | discovered targetIPV4 nodeId => exact h.discovered hfree hs
  | invalidate nodeId => exact h.invalidate hs

/-- An entry that is overwritten is in no place. -/
theorem slotFree_of_partitioned (h : w.Kept) (hs : step ownHostname w a = some w')
    (hpart : w'.Partitioned) : w.SlotFree a := by
  cases a with
  | addNode | invalidate => trivial
  | discovered targetIPV4 nodeId =>
    rintro ⟨entry', hmem', haddress'⟩
    simp only [Discovery.step] at hs
    split at hs
    · obtain ⟨d, hd, rfl⟩ := Option.map_eq_some_iff.mp hs
      rcases discovered_cases h.listed targetIPV4 nodeId with
        ⟨-, hne⟩ | ⟨entry, rest, hfound, -, -, hperm, -⟩
      · exact absurd haddress' (hne entry' hmem')
      · obtain rfl := Option.some.inj (hfound.symm.trans hd)
        cases hslot : w.manager.nodeInfo nodeId with
        | none => rfl
        | some old =>
          have hcount := count_discovered h nodeId hperm old
          rw [hslot, if_pos rfl] at hcount
          have hold : w.accepted.count old = rest.count (some old) + _ := hpart old
          omega
    · cases hs

/-- Throughout a run every accepted entry is in one place, and found again once it is
invalidated, exactly when no discovered job overwrites an entry. -/
theorem partitioned_iff (ownHostname : String) (nodeConf : List Entry) {as : List Action}
    (h : Lts.exec (step ownHostname) (new ownHostname nodeConf) as = some w) :
    (∀ bs, bs <+: as → ∀ w', Lts.exec (step ownHostname) (new ownHostname nodeConf) bs = some w' →
      w'.Partitioned ∧ w'.Rediscovers) ↔
    Lts.Along (step ownHostname) SlotFree (new ownHostname nodeConf) as :=
  Lts.forall_prefix_iff_along (I := Kept) (fun _ h => ⟨h.partitioned, h.rediscovers⟩)
    (fun _ _ _ h hfree hs => h.step hfree hs)
    (fun _ _ _ h hs hpart => slotFree_of_partitioned h hs hpart.1) (kept_new nodeConf) h

/-! ### Two nodes and one id -/

/-- The configured nodes 2 and 3. -/
def exampleConf : List Entry :=
  [{ hostname := "node2", address := 0x0A000002 }, { hostname := "node3", address := 0x0A000003 }]

/-- Both answer with the id of node 2. -/
def exampleSameId : List Action := [.discovered 0x0A000002 2, .discovered 0x0A000003 2]

/-- The entry of node 2 is overwritten: it was accepted, and is in no place. -/
theorem sameId_not_partitioned :
    ∃ w, Lts.exec (step "node1") (new "node1" exampleConf) exampleSameId = some w ∧
      ¬ w.Partitioned := by
  refine ⟨_, rfl, fun hpart => ?_⟩
  obtain ⟨w₁, h₁⟩ : ∃ w₁, step "node1" (new "node1" exampleConf) (.discovered 0x0A000002 2) =
      some w₁ := ⟨_, rfl⟩
  obtain ⟨w₂, h₂⟩ : ∃ w₂, step "node1" w₁ (.discovered 0x0A000003 2) = some w₂ := by
    obtain rfl := Option.some.inj h₁
    exact ⟨_, rfl⟩
  have hfirst : w₁.Kept := by
    refine (kept_new exampleConf).step ?_ h₁
    exact fun _ => rfl
  have hfree : w₁.SlotFree (.discovered 0x0A000003 2) := by
    refine slotFree_of_partitioned hfirst h₂ ?_
    obtain rfl := Option.some.inj h₁
    obtain rfl := Option.some.inj h₂
    exact hpart
  obtain rfl := Option.some.inj h₁
  exact absurd (hfree ⟨_, List.mem_cons_self, rfl⟩) (by decide)

/-- Node 2 is discovered, invalidated and discovered again. -/
theorem partitioned_rediscovered :
    ∃ w, Lts.exec (step "node1") (new "node1" exampleConf)
      [.discovered 0x0A000002 2, .invalidate 2, .discovered 0x0A000002 2] = some w ∧
        w.Partitioned ∧ w.Rediscovers := by
  have hrun : Lts.exec (step "node1") (new "node1" exampleConf)
      [.discovered 0x0A000002 2, .invalidate 2, .discovered 0x0A000002 2] = some _ := rfl
  refine ⟨_, hrun, (partitioned_iff "node1" exampleConf hrun).mpr ?_ _ (List.prefix_refl _) _ hrun⟩
  refine Lts.along_cons.mpr ⟨fun _ => rfl, fun w₁ h₁ => ?_⟩
  obtain rfl := Option.some.inj h₁
  refine Lts.along_cons.mpr ⟨trivial, fun w₂ h₂ => ?_⟩
  obtain rfl := Option.some.inj h₂
  exact Lts.along_cons.mpr ⟨fun _ => by decide, fun w₃ _ => trivial⟩

end Discovery

/-- The discovered job of the connection manager's queue is this one. -/
theorem ConnectionManager.run_jobDispatchDiscovered (targetIPV4 : UInt32) (nodeId : NodeId)
    (m : ConnectionManager) :
    match m.discoveryManager.discovered targetIPV4 nodeId with
    | none => (jobDispatchDiscovered targetIPV4 nodeId).run m = .error .nullPointer m
    | some d => ∃ m', (jobDispatchDiscovered targetIPV4 nodeId).run m = .ok () m' ∧
        m'.discoveryManager = d := by
  simp only [jobDispatchDiscovered, DiscoveryManager.discovered, EStateM.run_bind, EStateM.run_get]
  cases DiscoveryManager.takeEntry targetIPV4 m.discoveryManager.infoToGet with
  | none => rfl
  | some found =>
    cases found with
    | none => exact ⟨m, rfl, rfl⟩
    | some found =>
      simp only [EStateM.run_bind, EStateM.run_set, Exec.run_ite]
      split
      · exact ⟨_, rfl, rfl⟩
      · exact ⟨_, rfl, rfl⟩

end Ibdxnet.Con
