import Ibdxnet.Lib.Lts
import Mathlib.Algebra.Order.BigOperators.Group.Finset
import Mathlib.Computability.Language
import Mathlib.Data.Fintype.Lattice
import Mathlib.Logic.Function.Basic

/-!
# Locks taken in an order

Threads take and release locks, each thread call after call.  A call is one of the
traces of a language, in which a critical section is written `critical l P`.

Locks have ranks.  `Respects r P` says that every trace of `P` takes its locks
from rank `r` upwards, one above the other, and releases them all.  Then

    some thread can go on as long as one is in a call       (exists_step)
    from every state all calls can be finished              (exists_finish)
-/

namespace LockOrder

inductive LockOp (L : Type*)
  | acquire (l : L)
  | release (l : L)
  deriving DecidableEq, Repr

variable {L : Type*} [DecidableEq L] (rank : L → ℕ)

/-- The locks held after a trace, if each lock it takes is above those held and
each it releases is held. -/
def trace : List L → List (LockOp L) → Option (List L)
  | held, [] => some held
  | held, .acquire l :: p => if ∀ h ∈ held, rank h < rank l then trace (l :: held) p else none
  | held, .release l :: p => if l ∈ held then trace (held.erase l) p else none

variable {rank} {held held' : List L} {p q : List (LockOp L)} {l : L} {r r' : ℕ}

theorem trace_append (h : trace rank held p = some held') :
    trace rank held (p ++ q) = trace rank held' q := by
  induction p generalizing held with
  | nil =>
    obtain rfl := Option.some.inj h
    rfl
  | cons op p ih =>
    cases op with
    | acquire l =>
      simp only [trace, List.cons_append] at h ⊢
      split at h
      · next hrank =>
        rw [if_pos hrank]
        exact ih h
      · cases h
    | release l =>
      simp only [trace, List.cons_append] at h ⊢
      split at h
      · next hheld =>
        rw [if_pos hheld]
        exact ih h
      · cases h

theorem trace_acquire (h : trace rank held (.acquire l :: p) = some held') :
    (∀ k ∈ held, rank k < rank l) ∧ trace rank (l :: held) p = some held' := by
  rw [trace] at h
  split at h
  · next hrank => exact ⟨hrank, h⟩
  · cases h

theorem trace_release (h : trace rank held (.release l :: p) = some held') :
    l ∈ held ∧ trace rank (held.erase l) p = some held' := by
  rw [trace] at h
  split at h
  · next hheld => exact ⟨hheld, h⟩
  · cases h

/-! ## Languages of traces -/

/-- The traces of `P` with lock `l` held around them. -/
def critical (l : L) (P : Language (LockOp L)) : Language (LockOp L) :=
  {[.acquire l]} * P * {[.release l]}

omit [DecidableEq L] in
theorem mem_critical {P : Language (LockOp L)} (hp : p ∈ P) :
    .acquire l :: (p ++ [.release l]) ∈ critical l P :=
  Language.mem_mul.mpr ⟨.acquire l :: p, Language.mem_mul.mpr ⟨[.acquire l], rfl, p, hp, rfl⟩,
    [.release l], rfl, rfl⟩

variable (rank) in
/-- Every trace takes its locks from rank `r` upwards and releases them. -/
def Respects (r : ℕ) (P : Language (LockOp L)) : Prop :=
  ∀ p ∈ P, ∀ held : List L, (∀ h ∈ held, rank h < r) → trace rank held p = some held

variable {P Q : Language (LockOp L)}

theorem respects_one : Respects rank r (1 : Language (LockOp L)) := by
  intro p hp held _
  rw [Language.mem_one] at hp
  subst hp
  rfl

theorem Respects.add (hP : Respects rank r P) (hQ : Respects rank r Q) :
    Respects rank r (P + Q) := by
  intro p hp
  rcases (Language.mem_add P Q p).mp hp with hp | hp
  · exact hP p hp
  · exact hQ p hp

theorem Respects.mul (hP : Respects rank r P) (hQ : Respects rank r Q) :
    Respects rank r (P * Q) := by
  intro p hp held hheld
  obtain ⟨a, ha, b, hb, rfl⟩ := Language.mem_mul.mp hp
  rw [trace_append (hP a ha held hheld)]
  exact hQ b hb held hheld

theorem Respects.kstar (hP : Respects rank r P) : Respects rank r (KStar.kstar P) := by
  intro p hp held hheld
  obtain ⟨ps, rfl, hps⟩ := Language.mem_kstar.mp hp
  clear hp
  induction ps with
  | nil => rfl
  | cons a ps ih =>
    obtain ⟨ha, hrest⟩ := List.forall_mem_cons.mp hps
    rw [List.flatten_cons, trace_append (hP a ha held hheld)]
    exact ih hrest

/-- A critical section, inside which only locks above its own are taken. -/
theorem Respects.critical (hP : Respects rank (rank l + 1) P) (hr : r ≤ rank l) :
    Respects rank r (critical l P) := by
  intro p hp held hheld
  obtain ⟨a, ha, b, hb, rfl⟩ := Language.mem_mul.mp hp
  obtain ⟨a₁, ha₁, a₂, ha₂, rfl⟩ := Language.mem_mul.mp ha
  obtain rfl := Set.mem_singleton_iff.mp ha₁
  obtain rfl := Set.mem_singleton_iff.mp hb
  have hbelow : ∀ h ∈ held, rank h < rank l := by
    intro h hh
    exact Nat.lt_of_lt_of_le (hheld h hh) hr
  have hinside : trace rank (l :: held) a₂ = some (l :: held) := by
    apply hP a₂ ha₂
    intro h hh
    rcases List.mem_cons.mp hh with rfl | hh
    · omega
    · have hlt := hbelow h hh
      omega
  rw [List.append_assoc]
  show trace rank held (.acquire l :: (a₂ ++ [.release l])) = some held
  rw [trace, if_pos hbelow, trace_append hinside, trace, if_pos List.mem_cons_self,
    List.erase_cons_head]
  rfl

/-! ## Threads -/

structure Thread (L : Type*) where
  /-- what is left of the call -/
  call : List (LockOp L)
  held : List L

structure State (Tid L : Type*) where
  threads : Tid → Thread L
  holder : L → Option Tid

inductive Action (Tid L : Type*)
  | call (t : Tid) (trace : List (LockOp L))
  | next (t : Tid)

variable {Tid : Type*} [DecidableEq Tid]

def init : State Tid L where
  threads _ := { call := [], held := [] }
  holder _ := none

def nextStep (s : State Tid L) (t : Tid) : Option (State Tid L) :=
  match (s.threads t).call with
  | [] => none
  | .acquire l :: p =>
    match s.holder l with
    | none =>
      some
        { threads := Function.update s.threads t { call := p, held := l :: (s.threads t).held }
          holder := Function.update s.holder l (some t) }
    | some _ => none
  | .release l :: p =>
    if s.holder l = some t then
      some
        { threads := Function.update s.threads t { call := p, held := (s.threads t).held.erase l }
          holder := Function.update s.holder l none }
    else
      none

def step (s : State Tid L) : Action Tid L → Option (State Tid L)
  | .call t p =>
    match (s.threads t).call with
    | [] => some { s with threads := Function.update s.threads t { s.threads t with call := p } }
    | _ :: _ => none
  | .next t => nextStep s t

/-- The calls are those of the threads' languages. -/
def Calls (calls : Tid → Language (LockOp L)) (_ : State Tid L) : Action Tid L → Prop
  | .call t p => p ∈ calls t
  | .next _ => True

variable (rank) in
/-- What a thread has left to do releases what it holds, and nobody else holds it. -/
structure Inv (s : State Tid L) : Prop where
  rest : ∀ t, trace rank (s.threads t).held (s.threads t).call = some []
  holder : ∀ l t, s.holder l = some t ↔ l ∈ (s.threads t).held
  nodup : ∀ t, (s.threads t).held.Nodup

variable {s s' : State Tid L} {calls : Tid → Language (LockOp L)}

omit [DecidableEq Tid] in
theorem inv_init : Inv rank (init : State Tid L) where
  rest _ := rfl
  holder _ _ := iff_of_false nofun List.not_mem_nil
  nodup _ := List.nodup_nil

theorem Inv.acquire (h : Inv rank s) {t : Tid} (hcall : (s.threads t).call = .acquire l :: p)
    (hfree : s.holder l = none) :
    Inv rank
      { threads := Function.update s.threads t { call := p, held := l :: (s.threads t).held }
        holder := Function.update s.holder l (some t) } := by
  have hrest := h.rest t
  rw [hcall] at hrest
  obtain ⟨-, hrest⟩ := trace_acquire hrest
  have hnot : ∀ u, l ∉ (s.threads u).held := by
    intro u hmem
    rw [(h.holder l u).mpr hmem] at hfree
    cases hfree
  refine ⟨?_, ?_, ?_⟩
  · intro u
    by_cases hut : u = t
    · subst hut
      simp only [Function.update_self]
      exact hrest
    · simp only [Function.update_of_ne hut]
      exact h.rest u
  · intro k u
    by_cases hkl : k = l
    · subst hkl
      simp only [Function.update_self]
      by_cases hut : u = t
      · subst hut
        simp only [Function.update_self]
        exact iff_of_true trivial List.mem_cons_self
      · simp only [Function.update_of_ne hut]
        exact iff_of_false (fun heq => hut (Option.some.inj heq).symm) (hnot u)
    · simp only [Function.update_of_ne hkl]
      rw [h.holder k u]
      by_cases hut : u = t
      · subst hut
        simp only [Function.update_self, List.mem_cons, hkl, false_or]
      · simp only [Function.update_of_ne hut]
  · intro u
    by_cases hut : u = t
    · subst hut
      simp only [Function.update_self]
      exact List.nodup_cons.mpr ⟨hnot u, h.nodup u⟩
    · simp only [Function.update_of_ne hut]
      exact h.nodup u

theorem Inv.release (h : Inv rank s) {t : Tid} (hcall : (s.threads t).call = .release l :: p) :
    Inv rank
      { threads := Function.update s.threads t { call := p, held := (s.threads t).held.erase l }
        holder := Function.update s.holder l none } := by
  have hrest := h.rest t
  rw [hcall] at hrest
  obtain ⟨hheld, hrest⟩ := trace_release hrest
  have honly : ∀ u, u ≠ t → l ∉ (s.threads u).held := by
    intro u hut hmem
    have hu := (h.holder l u).mpr hmem
    rw [(h.holder l t).mpr hheld] at hu
    exact hut (Option.some.inj hu).symm
  refine ⟨?_, ?_, ?_⟩
  · intro u
    by_cases hut : u = t
    · subst hut
      simp only [Function.update_self]
      exact hrest
    · simp only [Function.update_of_ne hut]
      exact h.rest u
  · intro k u
    by_cases hkl : k = l
    · subst hkl
      simp only [Function.update_self]
      by_cases hut : u = t
      · subst hut
        simp only [Function.update_self]
        exact iff_of_false nofun (h.nodup u).not_mem_erase
      · simp only [Function.update_of_ne hut]
        exact iff_of_false nofun (honly u hut)
    · simp only [Function.update_of_ne hkl]
      rw [h.holder k u]
      by_cases hut : u = t
      · subst hut
        simp only [Function.update_self]
        exact (List.mem_erase_of_ne hkl).symm
      · simp only [Function.update_of_ne hut]
  · intro u
    by_cases hut : u = t
    · subst hut
      simp only [Function.update_self]
      exact (h.nodup u).erase l
    · simp only [Function.update_of_ne hut]
      exact h.nodup u

theorem Inv.next (h : Inv rank s) {t : Tid} (hs : nextStep s t = some s') : Inv rank s' := by
  unfold nextStep at hs
  split at hs
  · cases hs
  · next hcall =>
    split at hs
    · next hfree =>
      obtain rfl := Option.some.inj hs
      exact h.acquire hcall hfree
    · cases hs
  · next hcall =>
    split at hs
    · obtain rfl := Option.some.inj hs
      exact h.release hcall
    · cases hs

theorem Inv.step {a : Action Tid L} (hcalls : ∀ t, Respects rank 0 (calls t)) (h : Inv rank s)
    (ha : Calls calls s a) (hs : LockOrder.step s a = some s') : Inv rank s' := by
  cases a with
  | next t => exact h.next hs
  | call t p =>
    simp only [LockOrder.step] at hs
    split at hs
    · next hidle =>
      obtain rfl := Option.some.inj hs
      have hheld : (s.threads t).held = [] := by
        have hrest := h.rest t
        rw [hidle] at hrest
        exact Option.some.inj hrest
      refine ⟨?_, ?_, ?_⟩
      · intro u
        by_cases hut : u = t
        · subst hut
          simp only [Function.update_self, hheld]
          exact hcalls u p ha [] fun k hk => absurd hk List.not_mem_nil
        · simp only [Function.update_of_ne hut]
          exact h.rest u
      · intro l u
        rw [h.holder l u]
        by_cases hut : u = t
        · subst hut
          simp only [Function.update_self]
        · simp only [Function.update_of_ne hut]
      · intro u
        by_cases hut : u = t
        · subst hut
          simp only [Function.update_self]
          exact h.nodup u
        · simp only [Function.update_of_ne hut]
          exact h.nodup u
    · cases hs

/-! ## No deadlock -/

/-- A thread that cannot go on wants a lock that another one holds. -/
theorem Inv.blocked (h : Inv rank s) {t : Tid} (hbusy : (s.threads t).call ≠ [])
    (hstuck : nextStep s t = none) :
    ∃ l p u, (s.threads t).call = .acquire l :: p ∧ l ∈ (s.threads u).held := by
  unfold nextStep at hstuck
  split at hstuck
  · next hidle => exact absurd hidle hbusy
  · next l p hcall =>
    split at hstuck
    · cases hstuck
    · next u hheld => exact ⟨l, p, u, hcall, (h.holder l u).mp hheld⟩
  · next l p hcall =>
    have hrest := h.rest t
    rw [hcall] at hrest
    have hheld := (h.holder l t).mpr (trace_release hrest).1
    rw [if_pos hheld] at hstuck
    cases hstuck

variable (rank) in
/-- How high the lock is that the thread is about to take. -/
def wanted (t : Thread L) : ℕ :=
  match t.call with
  | .acquire l :: _ => rank l + 1
  | _ => 0

/-- Of the threads that wait, one wants the highest lock; its holder can go on. -/
theorem Inv.exists_step [Finite Tid] (h : Inv rank s) {t : Tid} (hbusy : (s.threads t).call ≠ []) :
    ∃ u s', nextStep s u = some s' := by
  by_contra hstuck
  have hblocked : ∀ u, nextStep s u = none := by
    intro u
    cases hu : nextStep s u with
    | none => rfl
    | some s' => exact absurd ⟨u, s', hu⟩ hstuck
  have : Nonempty Tid := ⟨t⟩
  obtain ⟨u, hmax⟩ := Finite.exists_max fun u => wanted rank (s.threads u)
  obtain ⟨l, p, holder, hcall, hheld⟩ : ∃ l p holder, (s.threads u).call = .acquire l :: p ∧
      l ∈ (s.threads holder).held := by
    apply h.blocked _ (hblocked u)
    intro hidle
    obtain ⟨l, p, holder, hcall, -⟩ := h.blocked hbusy (hblocked t)
    have hle := hmax t
    simp only [wanted, hcall, hidle] at hle
    omega
  -- the holder is in a call, and wants a lock above the ones it holds
  have hinside : (s.threads holder).call ≠ [] := by
    intro hidle
    have hrest := h.rest holder
    rw [hidle, trace, Option.some.injEq] at hrest
    rw [hrest] at hheld
    cases hheld
  obtain ⟨l', p', -, hcall', -⟩ := h.blocked hinside (hblocked holder)
  have hrest := h.rest holder
  rw [hcall'] at hrest
  have habove := (trace_acquire hrest).1 l hheld
  have hle := hmax holder
  simp only [wanted, hcall, hcall'] at hle
  omega

/-- The operations that are left. -/
def left [Fintype Tid] (s : State Tid L) : ℕ := ∑ t, (s.threads t).call.length

theorem left_next [Fintype Tid] {t : Tid} (hs : nextStep s t = some s') : left s' < left s := by
  have hother : ∃ op p held, (s.threads t).call = op :: p ∧
      s'.threads = Function.update s.threads t { call := p, held } := by
    unfold nextStep at hs
    split at hs
    · cases hs
    · next hcall =>
      split at hs
      · obtain rfl := Option.some.inj hs
        exact ⟨_, _, _, hcall, rfl⟩
      · cases hs
    · next hcall =>
      split at hs
      · obtain rfl := Option.some.inj hs
        exact ⟨_, _, _, hcall, rfl⟩
      · cases hs
  obtain ⟨op, p, held, hcall, hthreads⟩ := hother
  apply Finset.sum_lt_sum
  · intro u _
    rw [hthreads]
    by_cases hut : u = t
    · subst hut
      rw [Function.update_self, hcall]
      exact Nat.le_succ _
    · rw [Function.update_of_ne hut]
  · refine ⟨t, Finset.mem_univ t, ?_⟩
    rw [hthreads, Function.update_self, hcall]
    exact Nat.lt_succ_self _

/-- All calls that are under way can be finished. -/
theorem Inv.exists_finish [Fintype Tid] (h : Inv rank s) :
    ∃ ts s', Lts.exec nextStep s ts = some s' ∧ ∀ t, (s'.threads t).call = [] := by
  induction hn : left s using Nat.strongRecOn generalizing s with
  | ind n ih =>
    by_cases hidle : ∀ t, (s.threads t).call = []
    · exact ⟨[], s, rfl, hidle⟩
    · obtain ⟨t, hbusy⟩ := not_forall.mp hidle
      obtain ⟨u, s₁, hs₁⟩ := h.exists_step hbusy
      have hless := left_next hs₁
      rw [hn] at hless
      obtain ⟨ts, s', hts, hdone⟩ := ih (left s₁) hless (h.next hs₁) rfl
      exact ⟨u :: ts, s', Lts.exec_cons_eq_some.mpr ⟨s₁, hs₁, hts⟩, hdone⟩

theorem inv_of_exec (hcalls : ∀ t, Respects rank 0 (calls t)) {as : List (Action Tid L)}
    (has : Lts.Along step (Calls calls) init as) (h : Lts.exec step init as = some s) :
    Inv rank s :=
  Lts.exec_invariant_along (fun _ _ _ hi ha hs => hi.step hcalls ha hs) inv_init has h

end LockOrder
