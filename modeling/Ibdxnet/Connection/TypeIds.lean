import Ibdxnet.Connection.ExchangeRoundTrip
import Ibdxnet.Lib.Lts
import Mathlib.Data.List.Nodup

/-!
# Type ids and their dispatchers

Job manager and exchange manager hand out type ids and keep, for each id, a list
of dispatchers, with the same code:

    GenerateJobTypeId, GeneratePaketTypeId     TypeTable.checkTypeId, takeTypeId
    AddDispatcher, RemoveDispatcher            TypeTable.addDispatcher, removeDispatcher

The counter is compared with the invalid id before the lock is taken.  As long as
there is an id for every thread that is past the comparison, ids are handed out
once and registrations stay                                 (type_ids_distinct).
Otherwise a thread is given the invalid id, the counter is back at 0, and
`resize` drops all dispatchers                              (takeTypeId_invalid).
`PaketTypes` has the same calls for a thread that is not interrupted.
-/

namespace Ibdxnet.Con

/-- `JOB_TYPE_INVALID`, `INVALID_PACKET_TYPE` -/
def typeInvalid : UInt8 := 0xFF

theorem succ_toNat {type : UInt8} (h : type ≠ typeInvalid) :
    (type + 1).toNat = type.toNat + 1 := by
  have hne : type.toNat ≠ 255 := fun heq => h (UInt8.toNat_inj.mp heq)
  have hlt := UInt8.toNat_lt type
  rw [UInt8.toNat_add]
  exact Nat.mod_eq_of_lt (by show _ + 1 < 256; omega)

/-- `m_jobIdTypeCounter` or `m_paketTypeIdCounter`, and `m_dispatcher`. -/
structure TypeTable (D : Type*) where
  typeIdCounter : UInt8 := 0
  dispatcher : List (List D) := []
  deriving DecidableEq, Repr

namespace TypeTable

variable {D : Type*} [DecidableEq D]

/-- The comparison; `false` if it throws. -/
def checkTypeId (m : TypeTable D) : Bool := m.typeIdCounter ≠ typeInvalid

/-- `m_dispatcher.resize(size)` -/
def resize (size : Nat) (dispatcher : List (List D)) : List (List D) :=
  dispatcher.take size ++ List.replicate (size - dispatcher.length) []

/-- The id, and the table when the lock is released. -/
def takeTypeId (m : TypeTable D) : UInt8 × TypeTable D :=
  (m.typeIdCounter,
    { typeIdCounter := m.typeIdCounter + 1
      dispatcher := resize (m.typeIdCounter + 1).toNat m.dispatcher })

omit [DecidableEq D] in
theorem resize_succ {size : Nat} {dispatcher : List (List D)} (h : dispatcher.length = size) :
    resize (size + 1) dispatcher = dispatcher ++ [[]] := by
  unfold resize
  rw [h, List.take_of_length_le (by omega), Nat.add_sub_cancel_left]
  rfl

omit [DecidableEq D] in
/-- A thread that passed the comparison and finds the last id taken. -/
theorem takeTypeId_invalid {m : TypeTable D} (h : m.typeIdCounter = typeInvalid) :
    m.takeTypeId = (typeInvalid, {}) := by
  have hnext : typeInvalid + 1 = 0 := rfl
  unfold takeTypeId resize
  rw [h, hnext, UInt8.toNat_zero, List.take_zero, Nat.zero_sub]
  rfl

/-- `none` if the index is out of range. -/
def update (m : TypeTable D) (type : UInt8) (f : List D → List D) : Option (TypeTable D) :=
  if type.toNat < m.dispatcher.length then
    some { m with dispatcher := m.dispatcher.modify type.toNat f }
  else none

def addDispatcher (m : TypeTable D) (type : UInt8) (d : D) : Option (TypeTable D) :=
  m.update type (· ++ [d])

/-- The first entry that is `d` is erased. -/
def removeDispatcher (m : TypeTable D) (type : UInt8) (d : D) : Option (TypeTable D) :=
  m.update type (·.erase d)

end TypeTable

/-! ## Threads -/

inductive Registration (D : Type*)
  | addDispatcher (type : UInt8) (d : D)
  | removeDispatcher (type : UInt8) (d : D)
  deriving DecidableEq, Repr

/-- The dispatchers of a type after these registrations, last one first. -/
def dispatchersOf {D : Type*} [DecidableEq D] (type : UInt8) : List (Registration D) → List D
  | [] => []
  | .addDispatcher t d :: earlier =>
    if t = type then dispatchersOf type earlier ++ [d] else dispatchersOf type earlier
  | .removeDispatcher t d :: earlier =>
    if t = type then (dispatchersOf type earlier).erase d else dispatchersOf type earlier

structure TypeIds (Tid D : Type*) where
  table : TypeTable D := {}
  /-- the threads that are past the comparison and wait for the lock -/
  checked : List Tid := []
  /-- the ids handed out, first one first -/
  handedOut : List UInt8 := []
  /-- the registrations, last one first -/
  registrations : List (Registration D) := []
  deriving DecidableEq, Repr

namespace TypeIds

inductive Action (Tid D : Type*)
  | checkTypeId (t : Tid)
  | takeTypeId (t : Tid)
  | register (r : Registration D)
  deriving DecidableEq, Repr

variable {Tid D : Type*} [DecidableEq Tid] [DecidableEq D]

def step (s : TypeIds Tid D) : Action Tid D → Option (TypeIds Tid D)
  | .checkTypeId t =>
    if t ∈ s.checked then none
    else if s.table.checkTypeId then some { s with checked := t :: s.checked }
    else some s
  | .takeTypeId t =>
    if t ∈ s.checked then
      some { s with
        table := s.table.takeTypeId.2
        checked := s.checked.erase t
        handedOut := s.handedOut ++ [s.table.takeTypeId.1] }
    else none
  | .register r =>
    (match r with
      | .addDispatcher type d => s.table.addDispatcher type d
      | .removeDispatcher type d => s.table.removeDispatcher type d).map fun table =>
      { s with table, registrations := r :: s.registrations }

/-- A thread passes the comparison only if there is an id for it and for all that
passed before. -/
def Room (s : TypeIds Tid D) : Action Tid D → Prop
  | .checkTypeId _ => s.table.checkTypeId = true →
    s.table.typeIdCounter.toNat + s.checked.length < typeInvalid.toNat
  | .takeTypeId _ | .register _ => True

instance (s : TypeIds Tid D) : ∀ a, Decidable (s.Room a)
  | .checkTypeId _ => inferInstanceAs (Decidable (_ → _))
  | .takeTypeId _ | .register _ => isTrue trivial

/-! ## Ids are handed out once -/

structure Holds (s : TypeIds Tid D) : Prop where
  room : s.table.typeIdCounter.toNat + s.checked.length ≤ typeInvalid.toNat
  handedOut : s.handedOut = (List.range s.table.typeIdCounter.toNat).map UInt8.ofNat
  length : s.table.dispatcher.length = s.table.typeIdCounter.toNat
  dispatcher : ∀ type : UInt8, type.toNat < s.table.typeIdCounter.toNat →
    s.table.dispatcher[type.toNat]? = some (dispatchersOf type s.registrations)
  /-- nothing is registered for ids that are not handed out -/
  unused : ∀ type : UInt8, s.table.typeIdCounter.toNat ≤ type.toNat →
    dispatchersOf type s.registrations = []

variable {s s' : TypeIds Tid D} {a : Action Tid D}

omit [DecidableEq Tid] in
theorem holds_init : ({} : TypeIds Tid D).Holds where
  room := Nat.zero_le _
  handedOut := rfl
  length := rfl
  dispatcher _ h := absurd h (Nat.not_lt_zero _)
  unused _ _ := rfl

omit [DecidableEq Tid] in
/-- A registration that is `f` on its own type's dispatchers, when the list of that
type is updated with `f`. -/
theorem Holds.update (h : s.Holds) {type : UInt8} {f : List D → List D} {table : TypeTable D}
    {r : Registration D} (htable : s.table.update type f = some table)
    (hr : ∀ t earlier, dispatchersOf t (r :: earlier) =
      if type = t then f (dispatchersOf t earlier) else dispatchersOf t earlier) :
    Holds { s with table, registrations := r :: s.registrations } := by
  unfold TypeTable.update at htable
  obtain ⟨hlt, rfl⟩ := Option.ite_none_right_eq_some.mp htable |>.imp_right Option.some.inj
  rw [h.length] at hlt
  refine ⟨h.room, h.handedOut, ?_, ?_, ?_⟩
  · show (s.table.dispatcher.modify type.toNat f).length = _
    rw [List.length_modify]
    exact h.length
  · intro t ht
    show (s.table.dispatcher.modify type.toNat f)[t.toNat]? = some (dispatchersOf t _)
    rw [List.getElem?_modify, h.dispatcher t ht, hr, Option.map_eq_map, Option.map_some]
    by_cases heq : type = t
    · rw [if_pos heq, if_pos (congrArg UInt8.toNat heq)]
    · rw [if_neg heq, if_neg (fun hnat => heq (UInt8.toNat_inj.mp hnat))]
  · intro t ht
    replace ht : s.table.typeIdCounter.toNat ≤ t.toNat := ht
    rw [hr, if_neg]
    · exact h.unused t ht
    · rintro rfl
      omega

theorem Holds.step (h : s.Holds) (hroom : s.Room a) (hs : s.step a = some s') : s'.Holds := by
  cases a with
  | checkTypeId t =>
    unfold TypeIds.step at hs
    simp only [Option.ite_none_left_eq_some] at hs
    obtain ⟨-, hs⟩ := hs
    split at hs
    · next hcheck =>
      obtain rfl := Option.some.inj hs
      refine ⟨?_, h.handedOut, h.length, h.dispatcher, h.unused⟩
      have hlt := hroom hcheck
      show s.table.typeIdCounter.toNat + (t :: s.checked).length ≤ _
      rw [List.length_cons]
      omega
    · obtain rfl := Option.some.inj hs
      exact h
  | takeTypeId t =>
    unfold TypeIds.step at hs
    simp only [Option.ite_none_right_eq_some, Option.some.injEq] at hs
    obtain ⟨hmem, rfl⟩ := hs
    have hlen := List.length_pos_of_mem hmem
    have hroom' := h.room
    have hnext : (s.table.typeIdCounter + 1).toNat = s.table.typeIdCounter.toNat + 1 := by
      apply succ_toNat
      intro heq
      rw [heq] at hroom'
      omega
    have hresize : TypeTable.resize (s.table.typeIdCounter.toNat + 1) s.table.dispatcher =
        s.table.dispatcher ++ [[]] := TypeTable.resize_succ h.length
    refine ⟨?_, ?_, ?_, ?_, ?_⟩
    · show (s.table.typeIdCounter + 1).toNat + (s.checked.erase t).length ≤ _
      rw [hnext, List.length_erase_of_mem hmem]
      omega
    · show s.handedOut ++ [s.table.typeIdCounter] = _
      show _ = (List.range (s.table.typeIdCounter + 1).toNat).map UInt8.ofNat
      rw [hnext, List.range_succ, List.map_append, ← h.handedOut, List.map_singleton,
        UInt8.ofNat_toNat]
    · show (TypeTable.resize (s.table.typeIdCounter + 1).toNat s.table.dispatcher).length = _
      show _ = (s.table.typeIdCounter + 1).toNat
      rw [hnext, hresize, List.length_append, h.length]
      rfl
    · intro type htype
      replace htype : type.toNat < (s.table.typeIdCounter + 1).toNat := htype
      rw [hnext] at htype
      show (TypeTable.resize (s.table.typeIdCounter + 1).toNat s.table.dispatcher)[_]? = _
      rw [hnext, hresize]
      by_cases hlast : type.toNat < s.table.typeIdCounter.toNat
      · rw [List.getElem?_append_left (by rw [h.length]; exact hlast)]
        exact h.dispatcher type hlast
      · have heq : type.toNat = s.table.dispatcher.length := by
          rw [h.length]
          omega
        show _ = some (dispatchersOf type s.registrations)
        rw [h.unused type (by omega), heq, List.getElem?_concat_length]
    · intro type htype
      replace htype : (s.table.typeIdCounter + 1).toNat ≤ type.toNat := htype
      exact h.unused type (by omega)
  | register r =>
    unfold TypeIds.step at hs
    obtain ⟨table, htable, rfl⟩ := Option.map_eq_some_iff.mp hs
    cases r with
    | addDispatcher type d => exact h.update htable (fun _ _ => rfl)
    | removeDispatcher type d => exact h.update htable (fun _ _ => rfl)

/-- The ids handed out in a run are 0, 1, 2, .. and never the invalid one, and the list of
each is what has been registered for it. -/
theorem type_ids_distinct {as : List (Action Tid D)} (hs : Lts.exec TypeIds.step {} as = some s)
    (hroom : Lts.Along TypeIds.step Room ({} : TypeIds Tid D) as) :
    s.handedOut = (List.range s.handedOut.length).map UInt8.ofNat ∧
      s.handedOut.Nodup ∧ typeInvalid ∉ s.handedOut ∧
      s.table.typeIdCounter.toNat = s.handedOut.length ∧
      ∀ type : UInt8, s.table.dispatcher[type.toNat]? =
        if type ∈ s.handedOut then some (dispatchersOf type s.registrations) else none := by
  have h : s.Holds :=
    Lts.exec_invariant_along (fun _ _ _ hi hp hs => hi.step hp hs) holds_init hroom hs
  have hlength : s.table.typeIdCounter.toNat = s.handedOut.length := by
    rw [h.handedOut, List.length_map, List.length_range]
  have hmem : ∀ type : UInt8, type ∈ s.handedOut ↔ type.toNat < s.table.typeIdCounter.toNat := by
    intro type
    have hcounter := UInt8.toNat_lt s.table.typeIdCounter
    rw [h.handedOut]
    simp only [List.mem_map, List.mem_range]
    constructor
    · rintro ⟨i, hi, rfl⟩
      rw [UInt8.toNat_ofNat_of_lt' (by show i < 256; omega)]
      exact hi
    · intro hlt
      exact ⟨_, hlt, UInt8.ofNat_toNat⟩
  have hbound := h.room
  refine ⟨?_, ?_, ?_, hlength, ?_⟩
  · rw [← hlength]
    exact h.handedOut
  · rw [h.handedOut]
    refine List.Nodup.map_on (fun i hi j hj hij => ?_) List.nodup_range
    have hcounter := UInt8.toNat_lt s.table.typeIdCounter
    rw [List.mem_range] at hi hj
    rw [← UInt8.toNat_inj, UInt8.toNat_ofNat_of_lt' (by show i < 256; omega),
      UInt8.toNat_ofNat_of_lt' (by show j < 256; omega)] at hij
    exact hij
  · rw [hmem]
    omega
  · intro type
    by_cases htype : type ∈ s.handedOut
    · rw [if_pos htype]
      exact h.dispatcher type ((hmem type).mp htype)
    · rw [if_neg htype, List.getElem?_eq_none_iff, h.length]
      rw [hmem] at htype
      omega

/-- Two threads are past the comparison, and take their ids in the other order. -/
theorem type_ids_distinct_example :
    ∃ s : TypeIds Bool Nat, s.handedOut = [0, 1] ∧
      s.table.dispatcher[1]? = some [7] := by
  have h := @type_ids_distinct Bool Nat _ _ _
    [.checkTypeId true, .checkTypeId false, .takeTypeId false, .register (.addDispatcher 0 7),
      .takeTypeId true, .register (.addDispatcher 1 7), .register (.addDispatcher 1 8),
      .register (.removeDispatcher 1 8)] rfl (by decide)
  exact ⟨_, h.1, h.2.2.2.2 1⟩

end TypeIds

/-! ## Calls that are not interrupted -/

namespace PaketTypes

variable {Tid D : Type} [DecidableEq Tid] [DecidableEq D] {t t' : PaketTypes D} {type : UInt8}

def table (t : PaketTypes D) : TypeTable D where
  typeIdCounter := t.paketTypeIdCounter
  dispatcher := t.dispatcher

omit [DecidableEq D] in
theorem generatePaketTypeId_eq_ok (h : t.generatePaketTypeId = .ok (type, t')) :
    t.table.checkTypeId = true ∧ t.table.takeTypeId = (type, t'.table) := by
  unfold generatePaketTypeId at h
  split at h
  · cases h
  · next hcounter =>
    obtain ⟨rfl, rfl⟩ := Prod.mk.inj (Except.ok.inj h)
    refine ⟨decide_eq_true hcounter, ?_⟩
    show (t.paketTypeIdCounter, TypeTable.mk (t.paketTypeIdCounter + 1)
      (TypeTable.resize (t.paketTypeIdCounter + 1).toNat t.dispatcher)) = _
    rw [succ_toNat hcounter, TypeTable.resize_succ t.resized]
    rfl

omit [DecidableEq D] in
theorem generatePaketTypeId_eq_error {e : Sys.Exception} (h : t.generatePaketTypeId = .error e) :
    t.table.checkTypeId = false := by
  unfold generatePaketTypeId at h
  split at h
  · next hcounter => exact decide_eq_false (fun hne => hne hcounter)
  · cases h

/-- A thread that is not interrupted is given the id of the sequential model. -/
theorem exec_generatePaketTypeId {s : TypeIds Tid D} (hs : s.table = t.table) {thread : Tid}
    (hthread : thread ∉ s.checked) (h : t.generatePaketTypeId = .ok (type, t')) :
    Lts.exec TypeIds.step s [.checkTypeId thread, .takeTypeId thread] =
      some { s with table := t'.table, handedOut := s.handedOut ++ [type] } := by
  obtain ⟨hcheck, htake⟩ := generatePaketTypeId_eq_ok h
  rw [← hs] at hcheck htake
  have hpassed : s.step (.checkTypeId thread) = some { s with checked := thread :: s.checked } := by
    show (if _ then none else if _ then _ else _) = _
    rw [if_neg hthread, if_pos hcheck]
  have htaken : ({ s with checked := thread :: s.checked } : TypeIds Tid D).step
      (.takeTypeId thread) =
        some { s with table := t'.table, handedOut := s.handedOut ++ [type] } := by
    show (if _ then _ else none) = _
    rw [if_pos List.mem_cons_self, htake, List.erase_cons_head]
  exact Lts.exec_cons_eq_some.mpr ⟨_, hpassed, Lts.exec_cons_eq_some.mpr ⟨_, htaken, rfl⟩⟩

omit [DecidableEq D] in
/-- Registering for an id that was handed out. -/
theorem addDispatcher_table (htype : type.toNat < t.paketTypeIdCounter.toNat) (d : D) :
    t.table.addDispatcher type d = some (t.addDispatcher type d).table := by
  rw [← t.resized] at htype
  exact if_pos htype

theorem removeDispatcher_table (htype : type.toNat < t.paketTypeIdCounter.toNat) (d : D) :
    t.table.removeDispatcher type d = some (t.removeDispatcher type d).table := by
  rw [← t.resized] at htype
  exact if_pos htype

end PaketTypes

end Ibdxnet.Con
