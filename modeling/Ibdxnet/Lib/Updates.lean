import Mathlib.Data.List.Nodup
import Mathlib.Logic.Function.Basic

/-!
# Updates of a table, one entry after another

`updateAll q ks vs` is the table `q` after its entries `ks` are set to `vs`, in
order.  When no key is repeated the keys read back the values
(`map_updateAll`), and every other entry is what it was
(`updateAll_of_notMem`).
-/

namespace Updates

variable {ι α : Type*} [DecidableEq ι]

def updateAll (q : ι → α) : List ι → List α → ι → α
  | k :: ks, v :: vs => updateAll (Function.update q k v) ks vs
  | _, _ => q

@[simp] theorem updateAll_nil (q : ι → α) (vs : List α) : updateAll q [] vs = q := rfl

@[simp] theorem updateAll_nil_right (q : ι → α) (ks : List ι) : updateAll q ks [] = q := by
  cases ks <;> rfl

@[simp] theorem updateAll_cons (q : ι → α) (k : ι) (ks : List ι) (v : α) (vs : List α) :
    updateAll q (k :: ks) (v :: vs) = updateAll (Function.update q k v) ks vs := rfl

theorem updateAll_of_notMem {q : ι → α} {ks : List ι} {vs : List α} {k : ι} (h : k ∉ ks) :
    updateAll q ks vs k = q k := by
  induction ks generalizing q vs with
  | nil => rfl
  | cons l ks ih =>
    cases vs with
    | nil => rfl
    | cons v vs =>
      rw [List.mem_cons, not_or] at h
      rw [updateAll_cons, ih h.2, Function.update_of_ne h.1]

theorem map_updateAll {q : ι → α} {ks : List ι} {vs : List α} (hks : ks.Nodup)
    (hlen : ks.length = vs.length) : ks.map (updateAll q ks vs) = vs := by
  induction ks generalizing q vs with
  | nil => exact (List.length_eq_zero_iff.mp hlen.symm).symm
  | cons k ks ih =>
    cases vs with
    | nil => cases hlen
    | cons v vs =>
      rw [List.nodup_cons] at hks
      rw [List.map_cons, updateAll_cons, updateAll_of_notMem hks.1, Function.update_self,
        ih hks.2 (by simpa using hlen)]

/-- A loop that rewrites entries `0` to `n - 1`, each from its own value. -/
theorem foldl_update_range (f : Nat → α → α) (q : Nat → α) (n k : Nat) :
    (List.range n).foldl (fun q i => Function.update q i (f i (q i))) q k =
      if k < n then f k (q k) else q k := by
  induction n with
  | zero => simp
  | succ n ih =>
    rw [List.range_succ, List.foldl_append, List.foldl_cons, List.foldl_nil]
    rcases Nat.lt_trichotomy k n with h | h | h
    · rw [Function.update_of_ne (by omega), ih, if_pos h, if_pos (by omega)]
    · subst h
      rw [Function.update_self, if_pos (by omega)]
      congr 1
      generalize (List.range k).foldl _ q = q' at ih ⊢
      rw [ih, if_neg (by omega)]
    · rw [Function.update_of_ne (by omega), ih, if_neg (by omega), if_neg (by omega)]

end Updates
