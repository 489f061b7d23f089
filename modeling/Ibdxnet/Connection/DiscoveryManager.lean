import Ibdxnet.Sys.Exception
import Mathlib.Logic.Function.Basic

/-!
# Discovered nodes

The part of `con::DiscoveryManager` the connection manager works with: a node's
entry is either still to be discovered (`infoToGet`) or stored under the node id
it answered with (`nodeInfo`).  Both hold pointers; `none` is the null pointer.
-/

namespace Ibdxnet.Con

/-- `NodeConf::Entry` -/
structure Entry where
  hostname : String
  address : UInt32
  deriving DecidableEq, Repr

structure DiscoveryManager where
  infoToGet : List (Option Entry) := []
  nodeInfo : NodeId → Option Entry := fun _ => none

namespace DiscoveryManager

variable (d : DiscoveryManager)

def getNodeInfo (nodeId : NodeId) : Except Sys.Exception Entry :=
  match d.nodeInfo nodeId with
  | some entry => .ok entry
  | none => .error (.nodeNotAvailable nodeId)

/-- The node has to be discovered again. -/
def invalidate (nodeId : NodeId) : DiscoveryManager :=
  { infoToGet := d.infoToGet ++ [d.nodeInfo nodeId]
    nodeInfo := Function.update d.nodeInfo nodeId none }

/-- The first entry with address `ipv4` and the list without it.  The outer
`none` is a null pointer met on the way. -/
def takeEntry (ipv4 : UInt32) :
    List (Option Entry) → Option (Option (Entry × List (Option Entry)))
  | [] => some none
  | none :: _ => none
  | some entry :: rest =>
    if entry.address = ipv4 then some (some (entry, rest))
    else (takeEntry ipv4 rest).map fun found => found.map fun (e, es) => (e, some entry :: es)

/-- The constructor's list: don't add self. -/
def new (ownHostname : String) (nodeConf : List Entry) : DiscoveryManager where
  infoToGet := (nodeConf.filter fun entry => entry.hostname ≠ ownHostname).map some

/-- `AddNode`: don't add ourselves. -/
def addNode (ownHostname : String) (entry : Entry) : DiscoveryManager :=
  if entry.hostname ≠ ownHostname then { d with infoToGet := d.infoToGet ++ [some entry] } else d

/-- The discovered job, `none` when it dereferences a null pointer. -/
def discovered (targetIPV4 : UInt32) (nodeIdDiscovered : NodeId) : Option DiscoveryManager :=
  match takeEntry targetIPV4 d.infoToGet with
  | none => none
  | some none => some d
  | some (some (entry, rest)) =>
    some
      { infoToGet := rest
        nodeInfo := Function.update d.nodeInfo nodeIdDiscovered (some entry) }

/-- The addresses `__ExecuteDiscovery` sends a request to, `none` when it
dereferences a null pointer. -/
def executeDiscovery : Option (List UInt32) :=
  d.infoToGet.mapM fun entry => entry.map Entry.address

/-- What a search finds in a list without null pointers. -/
theorem takeEntry_spec (ipv4 : UInt32) {l : List (Option Entry)} (h : none ∉ l) :
    takeEntry ipv4 l = some none ∧ (∀ entry, some entry ∈ l → entry.address ≠ ipv4) ∨
      ∃ entry rest, takeEntry ipv4 l = some (some (entry, rest)) ∧ some entry ∈ l ∧
        entry.address = ipv4 ∧ none ∉ rest := by
  induction l with
  | nil => exact Or.inl ⟨rfl, by simp⟩
  | cons first l ih =>
    cases first with
    | none => simp at h
    | some first =>
      simp only [List.mem_cons, reduceCtorEq, false_or] at h
      by_cases haddress : first.address = ipv4
      · exact Or.inr ⟨first, l, by simp [takeEntry, haddress], by simp, haddress, h⟩
      rcases ih h with ⟨htake, hne⟩ | ⟨entry, rest, htake, hmem, heq, hrest⟩
      · refine Or.inl ⟨by simp [takeEntry, haddress, htake], fun entry hentry => ?_⟩
        rcases List.mem_cons.mp hentry with hfirst | hl
        · exact Option.some.inj hfirst ▸ haddress
        · exact hne entry hl
      · exact Or.inr ⟨entry, some first :: rest, by simp [takeEntry, haddress, htake],
          List.mem_cons_of_mem _ hmem, heq, by simpa using hrest⟩

/-- The entry that is found leaves the list, the others stay. -/
theorem perm_of_takeEntry {ipv4 : UInt32} {l rest : List (Option Entry)} {entry : Entry}
    (h : takeEntry ipv4 l = some (some (entry, rest))) : l.Perm (some entry :: rest) := by
  induction l generalizing rest with
  | nil => simp [takeEntry] at h
  | cons first l ih =>
    cases first with
    | none => simp [takeEntry] at h
    | some first =>
      by_cases haddress : first.address = ipv4
      · simp only [takeEntry, if_pos haddress, Option.some.injEq, Prod.mk.injEq] at h
        obtain ⟨rfl, rfl⟩ := h
        exact List.Perm.refl _
      · simp only [takeEntry, if_neg haddress, Option.map_eq_some_iff, Prod.exists,
          Prod.mk.injEq] at h
        obtain ⟨found, htake, e, es, rfl, rfl, rfl⟩ := h
        exact ((ih htake).cons _).trans (List.Perm.swap ..)

end DiscoveryManager

end Ibdxnet.Con
