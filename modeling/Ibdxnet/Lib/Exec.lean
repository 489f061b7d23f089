import Mathlib.Logic.Basic

/-!
# Programs that throw and keep their state

An `EStateM ε σ α` program returns a value or throws, and in both cases leaves
a state: what it wrote before the throw stays written.  These are the rules
that take a run of a composed program apart: from the run of `x >>= f` the run
of `x` and that of `f`, and from a run of a `try` block the run of its body.
-/

namespace Exec

variable {ε σ α β : Type}

@[simp] theorem run_throw (e : ε) (s : σ) :
    EStateM.run (throw e : EStateM ε σ α) s = .error e s := rfl

@[simp] theorem run_ite (c : Prop) [Decidable c] (x y : EStateM ε σ α) (s : σ) :
    EStateM.run (if c then x else y) s = if c then x.run s else y.run s := by
  split <;> rfl

@[simp] theorem run_tryCatch (x : EStateM ε σ α) (h : ε → EStateM ε σ α) (s : σ) :
    EStateM.run (tryCatch x h) s =
      match x.run s with
      | .ok a t => .ok a t
      | .error e t => (h e).run t := by
  change EStateM.tryCatch x h s = _
  delta EStateM.tryCatch EStateM.run
  cases x s <;> rfl

theorem run_map (f : α → β) (x : EStateM ε σ α) (s : σ) :
    EStateM.run (f <$> x) s =
      match x.run s with
      | .ok a t => .ok (f a) t
      | .error e t => .error e t := by
  change EStateM.map f x s = _
  delta EStateM.map EStateM.run
  cases x s <;> rfl

theorem run_bind_eq_ok {x : EStateM ε σ α} {f : α → EStateM ε σ β} {s u : σ} {b : β} :
    (x >>= f).run s = .ok b u ↔ ∃ a t, x.run s = .ok a t ∧ (f a).run t = .ok b u := by
  rw [EStateM.run_bind]
  constructor
  · intro h
    cases hx : x.run s with
    | ok a t => exact ⟨a, t, rfl, by simpa [hx] using h⟩
    | error e t => simp [hx] at h
  · rintro ⟨a, t, hx, hf⟩
    simpa [hx] using hf

theorem run_bind_eq_error {x : EStateM ε σ α} {f : α → EStateM ε σ β} {s u : σ} {e : ε} :
    (x >>= f).run s = .error e u ↔
      x.run s = .error e u ∨ ∃ a t, x.run s = .ok a t ∧ (f a).run t = .error e u := by
  rw [EStateM.run_bind]
  constructor
  · intro h
    cases hx : x.run s with
    | ok a t => exact Or.inr ⟨a, t, rfl, by simpa [hx] using h⟩
    | error e t => exact Or.inl (by simpa [hx] using h)
  · rintro (hx | ⟨a, t, hx, hf⟩)
    · simp [hx]
    · simpa [hx] using hf

theorem run_tryCatch_eq_ok {x : EStateM ε σ α} {h : ε → EStateM ε σ α} {s u : σ} {a : α} :
    EStateM.run (tryCatch x h) s = .ok a u ↔
      x.run s = .ok a u ∨ ∃ e t, x.run s = .error e t ∧ (h e).run t = .ok a u := by
  rw [run_tryCatch]
  constructor
  · intro h'
    cases hx : x.run s with
    | ok b t => exact Or.inl (by simpa [hx] using h')
    | error e t => exact Or.inr ⟨e, t, rfl, by simpa [hx] using h'⟩
  · rintro (hx | ⟨e, t, hx, hh⟩)
    · simp [hx]
    · simpa [hx] using hh

theorem run_discard_eq_ok {x : EStateM ε σ α} {s u : σ} :
    EStateM.run (discard x) s = .ok () u ↔ ∃ a, x.run s = .ok a u := by
  change EStateM.map (Function.const α ()) x s = _ ↔ _
  simp only [EStateM.map, EStateM.run]
  cases x s <;> simp

theorem run_discard_eq_error {x : EStateM ε σ α} {s u : σ} {e : ε} :
    EStateM.run (discard x) s = .error e u ↔ x.run s = .error e u := by
  change EStateM.map (Function.const α ()) x s = _ ↔ _
  simp only [EStateM.map, EStateM.run]
  cases x s <;> simp

/-! ## A program on a part of the state -/

/-- Run `x` on the part `get s` of the state and put back what it leaves. -/
def zoom {τ : Type} (get : σ → τ) (set : σ → τ → σ) (x : EStateM ε τ α) : EStateM ε σ α := fun s =>
  match x.run (get s) with
  | .ok a t => .ok a (set s t)
  | .error e t => .error e (set s t)

@[simp] theorem run_zoom {τ : Type} (get : σ → τ) (set : σ → τ → σ) (x : EStateM ε τ α) (s : σ) :
    (zoom get set x).run s =
      match x.run (get s) with
      | .ok a t => .ok a (set s t)
      | .error e t => .error e (set s t) := rfl

theorem run_zoom_eq_ok {τ : Type} {get : σ → τ} {set : σ → τ → σ} {x : EStateM ε τ α} {s u : σ}
    {a : α} : (zoom get set x).run s = .ok a u ↔ ∃ t, x.run (get s) = .ok a t ∧ set s t = u := by
  rw [run_zoom]
  cases x.run (get s) with
  | ok b t => simp only [EStateM.Result.ok.injEq]; grind
  | error e t => simp

/-! ## The state a run leaves -/

/-- The state after a run, returned or thrown. -/
def final : EStateM.Result ε σ α → σ
  | .ok _ s => s
  | .error _ s => s

@[simp] theorem final_ok (a : α) (s : σ) : final (.ok a s : EStateM.Result ε σ α) = s := rfl

@[simp] theorem final_error (e : ε) (s : σ) : final (.error e s : EStateM.Result ε σ α) = s := rfl

/-- A relation between a state and later ones that every part of `x >>= f` keeps. -/
theorem final_bind {R : σ → σ → Prop} (htrans : ∀ {s t u}, R s t → R t u → R s u)
    {x : EStateM ε σ α} {f : α → EStateM ε σ β} {s : σ} (hx : R s (final (x.run s)))
    (hf : ∀ a t, R t (final ((f a).run t))) : R s (final ((x >>= f).run s)) := by
  rw [EStateM.run_bind]
  cases hxs : x.run s with
  | ok a t =>
    rw [hxs] at hx
    exact htrans hx (hf a t)
  | error e t =>
    rw [hxs] at hx
    exact hx

/-- The exception a run ends with, if it throws. -/
def thrown : EStateM.Result ε σ α → Option ε
  | .ok _ _ => none
  | .error e _ => some e

@[simp] theorem thrown_ok (a : α) (s : σ) : thrown (.ok a s : EStateM.Result ε σ α) = none := rfl

@[simp] theorem thrown_error (e : ε) (s : σ) :
    thrown (.error e s : EStateM.Result ε σ α) = some e := rfl

/-! ## What a program can throw -/

/-- Whatever `x` throws satisfies `P`. -/
def Throws (P : ε → Prop) (x : EStateM ε σ α) : Prop :=
  ∀ s e t, x.run s = .error e t → P e

variable {P : ε → Prop}

theorem Throws.pure (a : α) : Throws P (Pure.pure a : EStateM ε σ α) := by
  intro s e t h
  simp at h

theorem Throws.get : Throws P (get : EStateM ε σ σ) := by
  intro s e t h
  simp at h

theorem Throws.set (u : σ) : Throws P (set u : EStateM ε σ PUnit) := by
  intro s e t h
  simp at h

theorem Throws.modify (f : σ → σ) : Throws P (modify f : EStateM ε σ PUnit) := by
  intro s e t h
  simp at h

theorem Throws.throw {e : ε} (he : P e) : Throws P (throw e : EStateM ε σ α) := by
  intro s e' t h
  simp only [run_throw, EStateM.Result.error.injEq] at h
  exact h.1 ▸ he

theorem Throws.bind {x : EStateM ε σ α} {f : α → EStateM ε σ β} (hx : Throws P x)
    (hf : ∀ a, Throws P (f a)) : Throws P (x >>= f) := by
  intro s e t h
  rcases run_bind_eq_error.mp h with h | ⟨a, u, -, h⟩
  · exact hx s e t h
  · exact hf a u e t h

theorem Throws.ite {c : Prop} [Decidable c] {x y : EStateM ε σ α} (hx : Throws P x)
    (hy : Throws P y) : Throws P (if c then x else y) := by
  split
  · exact hx
  · exact hy

theorem Throws.tryCatch {x : EStateM ε σ α} {h : ε → EStateM ε σ α} (hh : ∀ e, Throws P (h e)) :
    Throws P (tryCatch x h) := by
  intro s e t hrun
  rw [run_tryCatch] at hrun
  cases hx : x.run s with
  | ok a u => rw [hx] at hrun; cases hrun
  | error e' u => rw [hx] at hrun; exact hh e' u e t hrun

theorem Throws.zoom {τ : Type} {get : σ → τ} {set : σ → τ → σ} {x : EStateM ε τ α}
    (hx : Throws P x) : Throws P (zoom get set x) := by
  intro s e t h
  rw [run_zoom] at h
  cases hxs : x.run (get s) with
  | ok a u => rw [hxs] at h; cases h
  | error e' u =>
    rw [hxs] at h
    simp only [EStateM.Result.error.injEq] at h
    exact h.1 ▸ hx _ e' u hxs

/-! ## Programs without a state -/

theorem bind_eq_ok {x : Except ε α} {f : α → Except ε β} {b : β} :
    (x >>= f) = .ok b ↔ ∃ a, x = .ok a ∧ f a = .ok b := by
  constructor
  · intro h
    cases x with
    | error e => cases h
    | ok a => exact ⟨a, rfl, h⟩
  · rintro ⟨a, rfl, hf⟩
    exact hf

end Exec
