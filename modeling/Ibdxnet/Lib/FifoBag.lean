import Mathlib.Data.List.Perm.Subperm
import Mathlib.Data.List.Range
import Ibdxnet.Lib.Lts

/-!
# Bags that hand out in turn

A bag of objects that are handed out and taken back: `free` lists the objects in
the bag, the one that has been there longest first, `held` the ones handed out.
An operation takes objects from the front or puts held ones at the end.  Nothing
is lost or doubled, and the objects leave in the order they came in:

    (free ++ held) after  ~  (free ++ held) before           (objects_exec_perm)
    taken ++ free after   =  free before ++ what was put     (taken_append_free)
-/

/-- The objects in a bag, longest there first, and those handed out. -/
structure FifoBag (α : Type*) where
  free : List α
  held : List α
  deriving DecidableEq

namespace FifoBag

variable {α : Type*}

/-! ## Operations -/

/-- The bag that holds all of `xs`. -/
def ofList (xs : List α) : FifoBag α := ⟨xs, []⟩

/-- All objects, in the bag or handed out. -/
def objects (b : FifoBag α) : List α := b.free ++ b.held

/-- Hand out the first `count` objects, or all there are. -/
def take (b : FifoBag α) (count : Nat) : FifoBag α :=
  ⟨b.free.drop count, b.held ++ b.free.take count⟩

/-- Take back `xs`. -/
def put [DecidableEq α] (b : FifoBag α) (xs : List α) : FifoBag α :=
  ⟨b.free ++ xs, b.held.diff xs⟩

/-- The operations on a bag. -/
inductive Op (α : Type*) where
  | take (count : Nat)
  | put (xs : List α)

/-- One operation; only objects that are out are taken back, each once. -/
def step [DecidableEq α] (b : FifoBag α) : Op α → Option (FifoBag α)
  | .take count => some (b.take count)
  | .put xs => if xs.Subperm b.held then some (b.put xs) else none

/-- The objects an operation puts back. -/
def Op.returned : Op α → List α
  | .take _ => []
  | .put xs => xs

/-- The objects an operation hands out. -/
def handedOut (b : FifoBag α) : Op α → List α
  | .take count => b.free.take count
  | .put _ => []

/-- The objects handed out by a list of operations, in this order. -/
def taken [DecidableEq α] : FifoBag α → List (Op α) → List α
  | _, [] => []
  | b, op :: ops =>
    match b.step op with
    | some c => b.handedOut op ++ taken c ops
    | none => []

/-! ## Nothing is lost -/

@[simp] theorem objects_ofList (xs : List α) : (ofList xs).objects = xs := List.append_nil xs

theorem objects_take_perm (b : FifoBag α) (count : Nat) :
    (b.take count).objects.Perm b.objects := by
  have hsplit : b.objects = b.free.take count ++ (b.free.drop count ++ b.held) := by
    rw [objects, ← List.append_assoc, List.take_append_drop]
  rw [hsplit, objects, take, ← List.append_assoc]
  exact List.perm_append_comm

section
variable [DecidableEq α] {b b' : FifoBag α}

theorem objects_put_perm {xs : List α} (h : xs.Subperm b.held) :
    (b.put xs).objects.Perm b.objects := by
  have hheld : (xs ++ b.held.diff xs).Perm b.held :=
    List.subperm_append_diff_self_of_count_le fun x _ => h.count_le x
  rw [objects, put, List.append_assoc]
  exact hheld.append_left b.free

theorem objects_step_perm {op : Op α} (h : b.step op = some b') : b'.objects.Perm b.objects := by
  cases op with
  | take count =>
    obtain rfl : b.take count = b' := Option.some.inj h
    exact b.objects_take_perm count
  | put xs =>
    simp only [step, Option.ite_none_right_eq_some, Option.some.injEq] at h
    obtain ⟨hxs, rfl⟩ := h
    exact objects_put_perm hxs

theorem objects_exec_perm {ops : List (Op α)} (h : Lts.exec step b ops = some b') :
    b'.objects.Perm b.objects :=
  Lts.exec_invariant (I := fun c => c.objects.Perm b.objects)
    (fun _ _ _ hs hstep => (objects_step_perm hstep).trans hs) (List.Perm.refl _) h

/-! ## First in, first out -/

theorem handedOut_append_free {op : Op α} (h : b.step op = some b') :
    b.handedOut op ++ b'.free = b.free ++ op.returned := by
  cases op with
  | take count =>
    obtain rfl : b.take count = b' := Option.some.inj h
    simp only [handedOut, take, Op.returned, List.take_append_drop, List.append_nil]
  | put xs =>
    simp only [step, Option.ite_none_right_eq_some, Option.some.injEq] at h
    obtain ⟨-, rfl⟩ := h
    simp only [handedOut, put, Op.returned, List.nil_append]

/-- What is handed out is the front of what was there and what was put back. -/
theorem taken_append_free {ops : List (Op α)} (h : Lts.exec step b ops = some b') :
    taken b ops ++ b'.free = b.free ++ ops.flatMap Op.returned := by
  induction ops generalizing b with
  | nil =>
    obtain rfl : b = b' := Option.some.inj h
    simp [taken]
  | cons op ops ih =>
    obtain ⟨c, hc, hrest⟩ := Lts.exec_cons_eq_some.mp h
    have hop := handedOut_append_free hc
    rw [taken, hc]
    change (b.handedOut op ++ taken c ops) ++ b'.free = _
    rw [List.append_assoc, ih hrest, ← List.append_assoc, hop, List.append_assoc,
      List.flatMap_cons]

end

/-! ## What is out is not in the bag -/

section
variable {b : FifoBag α} {xs : List α} (h : b.objects.Perm xs)

include h

theorem length_free_add_held : b.free.length + b.held.length = xs.length := by
  rw [← List.length_append]
  exact h.length_eq

theorem mem_of_mem_free {x : α} (hx : x ∈ b.free) : x ∈ xs :=
  h.subset (List.mem_append_left _ hx)

theorem not_mem_held (hxs : xs.Nodup) {x : α} (hx : x ∈ b.free) : x ∉ b.held := by
  have hnodup : (b.free ++ b.held).Nodup := h.nodup_iff.mpr hxs
  exact fun hheld => (List.nodup_append.mp hnodup).2.2 x hx x hheld rfl

end

end FifoBag
