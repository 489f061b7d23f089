import Mathlib.Logic.Basic
import Mathlib.Data.List.Basic

/-!
# Runs of a guarded transition function

A system is a function `step : σ → α → Option σ`: the action `a` is enabled in
`s` exactly when `step s a` is a state.  `exec` runs a list of actions,
`Along` says that a condition holds of every action in the state it is taken
in, and the two induction rules carry an invariant over a run: over every run
(`exec_invariant`) or over the runs whose actions all meet a condition
(`exec_invariant_along`), which can be the exact one
(`forall_prefix_iff_along`).
-/

namespace Lts

variable {σ α : Type*}

/-- The state a list of actions leads to, `none` once an action is not enabled. -/
def exec (step : σ → α → Option σ) : σ → List α → Option σ
  | s, [] => some s
  | s, a :: as =>
    match step s a with
    | some t => exec step t as
    | none => none

/-- Every action of the run is taken in a state where `P` holds. -/
def Along (step : σ → α → Option σ) (P : σ → α → Prop) : σ → List α → Prop
  | _, [] => True
  | s, a :: as => P s a ∧
    match step s a with
    | some t => Along step P t as
    | none => True

/-- Some run from `s₀` ends in `s`. -/
def Reachable (step : σ → α → Option σ) (s₀ s : σ) : Prop :=
  ∃ as, exec step s₀ as = some s

instance Along.instDecidable (step : σ → α → Option σ) (P : σ → α → Prop)
    [∀ s a, Decidable (P s a)] : ∀ s as, Decidable (Along step P s as)
  | _, [] => isTrue trivial
  | s, a :: as =>
    match h : step s a with
    | some t =>
      have := Along.instDecidable step P t as
      decidable_of_iff (P s a ∧ Along step P t as) (by rw [Along, h])
    | none => decidable_of_iff (P s a) (by rw [Along, h]; simp)

section
variable {step : σ → α → Option σ} {P : σ → α → Prop} {I : σ → Prop}

@[simp] theorem exec_nil (s : σ) : exec step s [] = some s := rfl

theorem exec_cons_eq_some {s u : σ} {a : α} {as : List α} :
    exec step s (a :: as) = some u ↔ ∃ t, step s a = some t ∧ exec step t as = some u := by
  rw [exec]
  cases step s a <;> simp

theorem exec_append_eq_some {s u : σ} {as bs : List α} :
    exec step s (as ++ bs) = some u ↔
      ∃ t, exec step s as = some t ∧ exec step t bs = some u := by
  induction as generalizing s with
  | nil => simp
  | cons a as ih =>
    simp only [List.cons_append, exec_cons_eq_some, ih]
    constructor
    · rintro ⟨t, ha, v, has, hbs⟩
      exact ⟨v, ⟨t, ha, has⟩, hbs⟩
    · rintro ⟨v, ⟨t, ha, has⟩, hbs⟩
      exact ⟨t, ha, v, has, hbs⟩

theorem exec_concat_eq_some {s u : σ} {as : List α} {a : α} :
    exec step s (as ++ [a]) = some u ↔ ∃ t, exec step s as = some t ∧ step t a = some u := by
  rw [exec_append_eq_some]
  simp [exec_cons_eq_some]

/-- A run of a system is, state by state, one of a system it maps to. -/
theorem exec_map {τ : Type*} {step' : τ → α → Option τ} {f : σ → τ}
    (hf : ∀ s a, (step s a).map f = step' (f s) a) (s : σ) (as : List α) :
    (exec step s as).map f = exec step' (f s) as := by
  induction as generalizing s with
  | nil => rfl
  | cons a as ih =>
    rw [exec, exec, ← hf]
    cases step s a with
    | none => rfl
    | some t => exact ih t

/-- A run of actions that stand for others. -/
theorem exec_comp {β : Type*} (f : β → α) (s : σ) (bs : List β) :
    exec (fun s b => step s (f b)) s bs = exec step s (bs.map f) := by
  induction bs generalizing s with
  | nil => rfl
  | cons b bs ih =>
    rw [List.map_cons, exec, exec]
    cases step s (f b) with
    | none => rfl
    | some t => exact ih t

theorem along_cons {s : σ} {a : α} {as : List α} :
    Along step P s (a :: as) ↔ P s a ∧ ∀ t, step s a = some t → Along step P t as := by
  rw [Along]
  cases step s a <;> simp

theorem along_append {s : σ} {as bs : List α} :
    Along step P s (as ++ bs) ↔
      Along step P s as ∧ ∀ t, exec step s as = some t → Along step P t bs := by
  induction as generalizing s with
  | nil => simp [Along]
  | cons a as ih =>
    simp only [List.cons_append, along_cons, ih, exec_cons_eq_some]
    constructor
    · rintro ⟨hp, h⟩
      exact ⟨⟨hp, fun t ht => (h t ht).1⟩, fun u ⟨t, ht, hu⟩ => (h t ht).2 u hu⟩
    · rintro ⟨⟨hp, h⟩, h'⟩
      exact ⟨hp, fun t ht => ⟨h t ht, fun u hu => h' u ⟨t, ht, hu⟩⟩⟩

/-- A condition that always holds holds along every run. -/
theorem along_of_forall (h : ∀ s a, P s a) (s : σ) (as : List α) : Along step P s as := by
  induction as generalizing s with
  | nil => trivial
  | cons a as ih => exact along_cons.mpr ⟨h s a, fun t _ => ih t⟩

theorem Along.and {Q : σ → α → Prop} {s : σ} {as : List α} (hP : Along step P s as)
    (hQ : Along step Q s as) : Along step (fun s a => P s a ∧ Q s a) s as := by
  induction as generalizing s with
  | nil => trivial
  | cons a as ih =>
    rw [along_cons] at *
    exact ⟨⟨hP.1, hQ.1⟩, fun t ht => ih (hP.2 t ht) (hQ.2 t ht)⟩

/-- Two conditions that are the same in every state of the runs hold along the
same runs. -/
theorem along_congr {Q : σ → α → Prop} (hPQ : ∀ s a, I s → (P s a ↔ Q s a))
    (hstep : ∀ s a t, I s → step s a = some t → I t) {s : σ} {as : List α} (hs : I s) :
    Along step P s as ↔ Along step Q s as := by
  induction as generalizing s with
  | nil => rfl
  | cons a as ih =>
    rw [along_cons, along_cons, hPQ s a hs]
    exact and_congr_right fun _ => forall₂_congr fun t ht => ih (hstep s a t hs ht)

/-- A condition that keeps an invariant and with it gives another one. -/
theorem Along.imp {Q : σ → α → Prop} (hPQ : ∀ s a, I s → P s a → Q s a)
    (hstep : ∀ s a t, I s → P s a → step s a = some t → I t) {s : σ} {as : List α} (hs : I s)
    (hP : Along step P s as) : Along step Q s as := by
  induction as generalizing s with
  | nil => trivial
  | cons a as ih =>
    obtain ⟨hpa, hpas⟩ := along_cons.mp hP
    exact along_cons.mpr ⟨hPQ s a hs hpa, fun t ht => ih (hstep s a t hs hpa ht) (hpas t ht)⟩

/-- Two systems that take the same steps in every state of the runs. -/
theorem exec_congr {step' : σ → α → Option σ} (heq : ∀ s a, I s → step s a = step' s a)
    (hstep : ∀ s a t, I s → step s a = some t → I t) {s : σ} {as : List α} (hs : I s) :
    exec step s as = exec step' s as := by
  induction as generalizing s with
  | nil => rfl
  | cons a as ih =>
    rw [exec, exec, ← heq s a hs]
    cases ht : step s a with
    | none => rfl
    | some t => exact ih (hstep s a t hs ht)

/-- A condition holds along the same runs of two such systems. -/
theorem along_congr_step {step' : σ → α → Option σ} (heq : ∀ s a, I s → step s a = step' s a)
    (hstep : ∀ s a t, I s → step s a = some t → I t) {s : σ} {as : List α} (hs : I s) :
    Along step P s as ↔ Along step' P s as := by
  induction as generalizing s with
  | nil => rfl
  | cons a as ih =>
    rw [along_cons, along_cons, ← heq s a hs]
    exact and_congr_right fun _ => forall₂_congr fun t ht => ih (hstep s a t hs ht)

/-- A condition on the actions alone holds along a run of such actions. -/
theorem along_of_forall_mem {Q : α → Prop} {as : List α} (h : ∀ a ∈ as, Q a) (s : σ) :
    Along step (fun _ a => Q a) s as := by
  induction as generalizing s with
  | nil => trivial
  | cons a as ih =>
    exact along_cons.mpr ⟨h a List.mem_cons_self,
      fun t _ => ih (fun b hb => h b (List.mem_cons_of_mem a hb)) t⟩

/-- What every enabled action that meets `P` preserves holds at the end of
every run whose actions meet `P`. -/
theorem exec_invariant_along (hstep : ∀ s a t, I s → P s a → step s a = some t → I t)
    {s u : σ} {as : List α} (hs : I s) (hp : Along step P s as)
    (h : exec step s as = some u) : I u := by
  induction as generalizing s with
  | nil =>
    rw [exec_nil, Option.some.injEq] at h
    exact h ▸ hs
  | cons a as ih =>
    obtain ⟨t, ht, hu⟩ := exec_cons_eq_some.mp h
    obtain ⟨hpa, hpas⟩ := along_cons.mp hp
    exact ih (hstep s a t hs hpa ht) (hpas t ht) hu

/-- What every enabled action preserves holds in every state a run reaches. -/
theorem exec_invariant (hstep : ∀ s a t, I s → step s a = some t → I t)
    {s u : σ} {as : List α} (hs : I s) (h : exec step s as = some u) : I u :=
  exec_invariant_along (P := fun _ _ => True) (fun s a t hi _ => hstep s a t hi) hs
    (along_of_forall (fun _ _ => trivial) s as) h

/-- What an invariant gives for every enabled action holds along every run. -/
theorem along_of_exec (hP : ∀ s a t, I s → step s a = some t → P s a)
    (hstep : ∀ s a t, I s → step s a = some t → I t) {s u : σ} {as : List α} (hs : I s)
    (h : exec step s as = some u) : Along step P s as := by
  induction as generalizing s with
  | nil => trivial
  | cons a as ih =>
    obtain ⟨t, ht, hu⟩ := exec_cons_eq_some.mp h
    refine along_cons.mpr ⟨hP s a t hs ht, fun t' ht' => ?_⟩
    obtain rfl : t = t' := Option.some.inj (ht.symm.trans ht')
    exact ih (hstep s a t hs ht) hu

/-- What the actions of a run cost in all. -/
def cost (step : σ → α → Option σ) (c : σ → α → Nat) : σ → List α → Nat
  | _, [] => 0
  | s, a :: as => c s a +
    match step s a with
    | some t => cost step c t as
    | none => 0

/-- A potential that pays for every action bounds the cost of a run. -/
theorem cost_add_le {c : σ → α → Nat} {μ : σ → Nat}
    (hstep : ∀ s a t, I s → P s a → step s a = some t → I t)
    (hpays : ∀ s a t, I s → P s a → step s a = some t → c s a + μ t ≤ μ s)
    {s u : σ} {as : List α} (hs : I s) (hp : Along step P s as) (h : exec step s as = some u) :
    cost step c s as + μ u ≤ μ s := by
  induction as generalizing s with
  | nil =>
    rw [exec_nil, Option.some.injEq] at h
    subst h
    exact Nat.le_of_eq (Nat.zero_add _)
  | cons a as ih =>
    obtain ⟨t, ht, hu⟩ := exec_cons_eq_some.mp h
    obtain ⟨hpa, hpas⟩ := along_cons.mp hp
    have hrest := ih (hstep s a t hs hpa ht) (hpas t ht) hu
    have hfirst := hpays s a t hs hpa ht
    rw [cost, ht]
    simp only
    omega

/-- The exact condition for a property to hold throughout a run of actions in
`A`: `P` of each action, where a step keeps the invariant under `P`, the
invariant gives the property, and the property of the next state gives `P` back. -/
theorem forall_prefix_iff_along_of_mem {A : α → Prop} {Q : σ → Prop} (hI : ∀ s, I s → Q s)
    (hstep : ∀ s a t, A a → I s → P s a → step s a = some t → I t)
    (hback : ∀ s a t, A a → I s → step s a = some t → Q t → P s a)
    {s u : σ} {as : List α} (hA : ∀ a ∈ as, A a) (hs : I s) (h : exec step s as = some u) :
    (∀ bs, bs <+: as → ∀ t, exec step s bs = some t → Q t) ↔ Along step P s as := by
  induction as generalizing s with
  | nil =>
    refine iff_of_true (fun bs hbs t ht => ?_) trivial
    rw [List.prefix_nil.mp hbs, exec_nil, Option.some.injEq] at ht
    exact ht ▸ hI s hs
  | cons a as ih =>
    obtain ⟨t, ht, hu⟩ := exec_cons_eq_some.mp h
    have ha := hA a List.mem_cons_self
    replace ih := fun {s} => @ih s fun b hb => hA b (List.mem_cons_of_mem a hb)
    constructor
    · intro hQ
      have hp : P s a := hback s a t ha hs ht
        (hQ [a] ⟨as, rfl⟩ t (exec_cons_eq_some.mpr ⟨t, ht, exec_nil t⟩))
      refine along_cons.mpr ⟨hp, fun t' ht' => ?_⟩
      obtain rfl : t = t' := Option.some.inj (ht.symm.trans ht')
      refine (ih (hstep s a t ha hs hp ht) hu).mp fun bs hbs v hv => ?_
      exact hQ (a :: bs) (List.cons_prefix_cons.mpr ⟨rfl, hbs⟩) v
        (exec_cons_eq_some.mpr ⟨t, ht, hv⟩)
    · intro hp bs hbs v hv
      obtain ⟨hpa, hpas⟩ := along_cons.mp hp
      cases bs with
      | nil =>
        rw [exec_nil, Option.some.injEq] at hv
        exact hv ▸ hI s hs
      | cons b bs =>
        obtain ⟨rfl, hprefix⟩ := List.cons_prefix_cons.mp hbs
        obtain ⟨t', ht', hv⟩ := exec_cons_eq_some.mp hv
        obtain rfl : t = t' := Option.some.inj (ht.symm.trans ht')
        exact (ih (hstep s _ t ha hs hpa ht) hu).mpr (hpas t ht) bs hprefix v hv

/-- The exact condition, for runs of any actions. -/
theorem forall_prefix_iff_along {Q : σ → Prop} (hI : ∀ s, I s → Q s)
    (hstep : ∀ s a t, I s → P s a → step s a = some t → I t)
    (hback : ∀ s a t, I s → step s a = some t → Q t → P s a)
    {s u : σ} {as : List α} (hs : I s) (h : exec step s as = some u) :
    (∀ bs, bs <+: as → ∀ t, exec step s bs = some t → Q t) ↔ Along step P s as :=
  forall_prefix_iff_along_of_mem (A := fun _ => True) hI (fun s a t _ => hstep s a t)
    (fun s a t _ => hback s a t) (fun _ _ => trivial) hs h

theorem Reachable.invariant (hstep : ∀ s a t, I s → step s a = some t → I t) {s u : σ}
    (hs : I s) (h : Reachable step s u) : I u := by
  obtain ⟨as, has⟩ := h
  exact exec_invariant hstep hs has

end

end Lts
