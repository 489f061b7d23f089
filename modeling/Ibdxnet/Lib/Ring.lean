import Mathlib.Data.Int.ModEq
import Mathlib.Data.List.Basic
import Mathlib.Data.List.Range
import Mathlib.Logic.Function.Basic

/-!
# Windows of a ring array

A ring array of size `n` is a function of the slot number, read at positions
modulo `n`.  `window q n f k` lists the `k` entries that start at position `f`.
Positions are taken as free-running counters: a window does not change when a
multiple of `n` is added to its start (`window_mod`), and two positions less
than `n` apart are in different slots (`mod_eq_iff_of_lt`), so that writing the
slot after a window extends it (`window_push`) and writing a slot outside
leaves it alone (`window_update_of_ne`).

    window q n f (k + 1) = q (f % n) :: window q n (f + 1) k      (window_succ)
    window q n f (j + k) = window q n f j ++ window q n (f + j) k  (window_add)

`Queue q n f xs` says that the window from `f` holds `xs` and that the other slots
are empty; taking from the front and filling behind the back keep it (`Queue.pop`,
`Queue.push`, and over a run of slots `Queue.drop`, `Queue.append`).
-/

namespace Ring

variable {α : Type*}

/-! ## Positions modulo the size -/

/-- Two positions less than `n` apart that fall into one slot are equal. -/
theorem eq_of_mod_eq {n a b : Nat} (hab : a ≤ b) (hba : b < a + n) (h : a % n = b % n) : a = b := by
  have hn : 0 < n := by omega
  have hdvd : n ∣ b - a := (Nat.modEq_iff_dvd' hab).mp h
  obtain ⟨c, hc⟩ := hdvd
  rcases Nat.eq_zero_or_pos c with h0 | hpos
  · subst h0; omega
  · have : n * 1 ≤ n * c := Nat.mul_le_mul_left n hpos
    omega

theorem mod_eq_iff_of_lt {n f a b : Nat} (ha : f ≤ a) (ha' : a < f + n) (hb : f ≤ b)
    (hb' : b < f + n) : a % n = b % n ↔ a = b := by
  constructor
  · intro h
    rcases Nat.le_total a b with hab | hba
    · exact eq_of_mod_eq hab (by omega) h
    · exact (eq_of_mod_eq hba (by omega) h.symm).symm
  · rintro rfl; rfl

/-- The slot `d < n` positions on: either no wrap around or one. -/
theorem add_mod_cases {n d : Nat} (f : Nat) (hd : d < n) :
    (f + d) % n = f % n + d ∧ f % n + d < n ∨ (f + d) % n + n = f % n + d ∧ n ≤ f % n + d := by
  have hlt := Nat.mod_lt f (show 0 < n by omega)
  rw [← Nat.mod_add_mod]
  rcases Nat.lt_or_ge (f % n + d) n with h | h
  · exact Or.inl ⟨Nat.mod_eq_of_lt h, h⟩
  · rw [Nat.mod_eq_sub_mod h, Nat.mod_eq_of_lt (show f % n + d - n < n by omega)]
    omega

/-- The distance between two slots of a ring is that of the positions. -/
theorem sub_mod_eq {n a b : Nat} (hab : a ≤ b) (hba : b < a + n) :
    (b % n + n - a % n) % n = b - a := by
  obtain ⟨d, rfl⟩ := Nat.exists_eq_add_of_le hab
  have hlt := Nat.mod_lt a (show 0 < n by omega)
  rcases add_mod_cases a (show d < n by omega) with ⟨h, _⟩ | ⟨h, _⟩
  · have hsub : (a + d) % n + n - a % n = d + n := by omega
    rw [hsub, Nat.add_mod_right, Nat.mod_eq_of_lt (by omega), Nat.add_sub_cancel_left]
  · have hsub : (a + d) % n + n - a % n = d := by omega
    rw [hsub, Nat.mod_eq_of_lt (by omega), Nat.add_sub_cancel_left]

/-! ## Windows -/

/-- The `k` entries of the ring array `q` of size `n` from position `f` on. -/
def window (q : Nat → α) (n f k : Nat) : List α :=
  (List.range k).map fun i => q ((f + i) % n)

variable (q : Nat → α) (n f : Nat)

@[simp] theorem window_zero : window q n f 0 = [] := rfl

@[simp] theorem length_window (k : Nat) : (window q n f k).length = k := by simp [window]

@[simp] theorem window_mod (k : Nat) : window q n (f % n) k = window q n f k := by
  simp [window]

theorem window_add (j k : Nat) :
    window q n f (j + k) = window q n f j ++ window q n (f + j) k := by
  simp only [window, List.range_add, List.map_append, List.map_map]
  congr 1
  simp [Function.comp_def, Nat.add_assoc]

theorem window_succ (k : Nat) : window q n f (k + 1) = q (f % n) :: window q n (f + 1) k := by
  rw [Nat.add_comm, window_add]
  simp [window]

theorem window_succ_last (k : Nat) :
    window q n f (k + 1) = window q n f k ++ [q ((f + k) % n)] := by
  rw [window_add]
  simp [window]

theorem take_window {j k : Nat} (h : j ≤ k) : (window q n f k).take j = window q n f j := by
  obtain ⟨m, rfl⟩ := Nat.exists_eq_add_of_le h
  rw [window_add, List.take_left' (by simp)]

theorem drop_window {j k : Nat} (h : j ≤ k) :
    (window q n f k).drop j = window q n (f + j) (k - j) := by
  obtain ⟨m, rfl⟩ := Nat.exists_eq_add_of_le h
  rw [window_add, List.drop_left' (by simp), Nat.add_sub_cancel_left]

/-- Windows agree when the arrays agree on their slots. -/
theorem window_congr {q q' : Nat → α} {k : Nat}
    (h : ∀ i, i < k → q ((f + i) % n) = q' ((f + i) % n)) : window q n f k = window q' n f k := by
  apply List.map_congr_left
  intro i hi
  exact h i (List.mem_range.mp hi)

/-- Writing a slot no position of the window falls into leaves the window alone. -/
theorem window_update_of_ne {k p : Nat} (v : α) (h : ∀ i, i < k → (f + i) % n ≠ p) :
    window (Function.update q p v) n f k = window q n f k :=
  window_congr n f fun i hi => Function.update_of_ne (h i hi) v q

/-- Writing the slot after a window that does not fill the ring extends it. -/
theorem window_push {k : Nat} (v : α) (hk : k < n) :
    window (Function.update q ((f + k) % n) v) n f (k + 1) = window q n f k ++ [v] := by
  rw [window_succ_last, window_update_of_ne q n f v, Function.update_self]
  intro i hi h
  have := (mod_eq_iff_of_lt (f := f) (by omega) (by omega) (by omega) (by omega)).mp h
  omega

/-- Writing the first slot leaves the rest of a window that does not exceed the ring. -/
theorem window_tail_update {k : Nat} (v : α) (hk : k < n) :
    window (Function.update q (f % n) v) n (f + 1) k = window q n (f + 1) k := by
  apply window_update_of_ne
  intro i hi h
  have := (mod_eq_iff_of_lt (f := f) (by omega) (by omega) (by omega) (by omega)).mp h
  omega

/-- The slots of positions that do not wrap around. -/
theorem window_id_of_le {n f k : Nat} (h : f + k ≤ n) : window id n f k = List.range' f k := by
  rw [List.range'_eq_map_range, window]
  apply List.map_congr_left
  intro i hi
  have := List.mem_range.mp hi
  simp only [id_eq]
  exact Nat.mod_eq_of_lt (by omega)

/-! ## Writing a run of slots -/

/-- The ring array after `vs` is written into the slots from position `f` on. -/
def write (q : Nat → α) (n f : Nat) : List α → Nat → α
  | [] => q
  | v :: vs => write (Function.update q (f % n) v) n (f + 1) vs

/-- Only the slot of the start matters. -/
theorem write_congr {q : Nat → α} {n f f' : Nat} (vs : List α) (h : f % n = f' % n) :
    write q n f vs = write q n f' vs := by
  induction vs generalizing q f f' with
  | nil => rfl
  | cons v vs ih =>
    rw [write, write, h]
    apply ih
    rw [Nat.add_mod, h, ← Nat.add_mod]

/-- Two runs of slots written one behind the other. -/
theorem write_append (vs ws : List α) :
    write q n f (vs ++ ws) = write (write q n f vs) n (f + vs.length) ws := by
  induction vs generalizing q f with
  | nil => rfl
  | cons v vs ih =>
    rw [List.cons_append, write, write, ih, List.length_cons, Nat.add_assoc, Nat.add_comm 1]

/-! ## Queues -/

/-- The array of optional entries is a queue: the slots from position `f` on hold
`xs`, the other slots of the ring are empty. -/
structure Queue (q : Nat → Option α) (n f : Nat) (xs : List α) : Prop where
  filled : window q n f xs.length = xs.map some
  free : ∀ i, xs.length ≤ i → i < n → q ((f + i) % n) = none

namespace Queue

variable {q : Nat → Option α} {n f : Nat} {x : α} {xs : List α}

/-- The first `k` slots filled with their own number. -/
theorem range {k : Nat} (hk : k ≤ n) :
    Queue (fun i => if i < k then some i else none) n 0 (List.range k) where
  filled := by
    rw [window, List.length_range]
    apply List.map_congr_left
    intro i hi
    have hi' := List.mem_range.mp hi
    rw [Nat.zero_add, Nat.mod_eq_of_lt (by omega), if_pos hi']
  free i h1 h2 := by
    rw [List.length_range] at h1
    rw [Nat.zero_add, Nat.mod_eq_of_lt h2, if_neg (by omega)]

theorem mod_iff : Queue q n (f % n) xs ↔ Queue q n f xs := by
  constructor
  · rintro ⟨hfilled, hfree⟩
    exact ⟨by rwa [window_mod] at hfilled, by simpa only [Nat.mod_add_mod] using hfree⟩
  · rintro ⟨hfilled, hfree⟩
    exact ⟨by rwa [window_mod], by simpa only [Nat.mod_add_mod] using hfree⟩

theorem head_eq (h : Queue q n f (x :: xs)) : q (f % n) = some x := by
  have hfilled := h.filled
  rw [List.length_cons, window_succ, List.map_cons, List.cons.injEq] at hfilled
  exact hfilled.1

/-- The first entry is taken out and its slot cleared. -/
theorem pop (h : Queue q n f (x :: xs)) (hlen : xs.length < n) :
    Queue (Function.update q (f % n) none) n (f + 1) xs where
  filled := by
    have hfilled := h.filled
    rw [List.length_cons, window_succ, List.map_cons, List.cons.injEq] at hfilled
    rw [window_tail_update q n f none hlen]
    exact hfilled.2
  free i h1 h2 := by
    by_cases hi : i + 1 < n
    · rw [Function.update_of_ne]
      · have hfree := h.free (i + 1) (by rw [List.length_cons]; omega) hi
        rwa [Nat.add_assoc, Nat.add_comm 1]
      · intro heq
        have := eq_of_mod_eq (by omega) (by omega) heq.symm
        omega
    · -- the slot before the new front is the cleared one
      have hwrap : f + 1 + i = f + n := by omega
      rw [hwrap, Nat.add_mod_right, Function.update_self]

/-- The slot behind the last entry is filled. -/
theorem push (h : Queue q n f xs) (hlen : xs.length < n) (y : α) :
    Queue (Function.update q ((f + xs.length) % n) (some y)) n f (xs ++ [y]) where
  filled := by
    rw [List.length_append, List.length_singleton, window_push _ _ _ _ hlen, h.filled,
      List.map_append, List.map_singleton]
  free i h1 h2 := by
    rw [List.length_append, List.length_singleton] at h1
    rw [Function.update_of_ne]
    · exact h.free i (by omega) h2
    · intro heq
      have := (mod_eq_iff_of_lt (f := f) (by omega) (by omega) (by omega) (by omega)).mp heq
      omega

/-- The first `k` entries are taken out, one after another. -/
theorem drop (h : Queue q n f xs) (hlen : xs.length ≤ n) {k : Nat} (hk : k ≤ xs.length) :
    Queue (write q n f (List.replicate k none)) n (f + k) (xs.drop k) := by
  induction k generalizing q f xs with
  | zero => exact h
  | succ k ih =>
    cases xs with
    | nil => simp at hk
    | cons x xs =>
      rw [List.length_cons] at hlen hk
      have hrest := ih (h.pop (by omega)) (by omega) (by omega)
      rwa [Nat.add_assoc, Nat.add_comm 1] at hrest

/-- The slots behind the last entry are filled, one after another. -/
theorem append (h : Queue q n f xs) (ys : List α) (hlen : xs.length + ys.length ≤ n) :
    Queue (write q n (f + xs.length) (ys.map some)) n f (xs ++ ys) := by
  induction ys generalizing q xs with
  | nil => simpa [write] using h
  | cons y ys ih =>
    rw [List.length_cons] at hlen
    have hrest := ih (h.push (by omega) y) (by simp; omega)
    rw [List.length_append, List.length_singleton, ← Nat.add_assoc, List.append_assoc] at hrest
    exact hrest

end Queue

end Ring
