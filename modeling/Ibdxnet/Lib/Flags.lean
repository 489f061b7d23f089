import Mathlib.Data.BitVec

/-!
# Flags of a word

A word read as a set of flags: `Within f g` says that every flag of `f` is set
in `g`.  It is an order with the union `f ||| g` as its least upper bound

    Within (f ||| g) h  ↔  Within f h ∧ Within g h

so that facts about single flags and facts about whole words are one kind of
fact.
-/

namespace Flags

variable {w : Nat} {f g h : BitVec w}

def Within (f g : BitVec w) : Prop := f &&& g = f

instance : Decidable (Within f g) := inferInstanceAs (Decidable (_ = _))

theorem Within.refl (f : BitVec w) : Within f f := BitVec.and_self

theorem Within.trans (hfg : Within f g) (hgh : Within g h) : Within f h := by
  unfold Within at *
  calc f &&& h = f &&& g &&& h := by rw [hfg]
    _ = f &&& (g &&& h) := BitVec.and_assoc ..
    _ = f := by rw [hgh, hfg]

theorem Within.antisymm (hfg : Within f g) (hgf : Within g f) : f = g := by
  unfold Within at *
  rw [← hfg, BitVec.and_comm, hgf]

theorem within_iff_getElem :
    Within f g ↔ ∀ (i : Nat) (hi : i < w), f[i] = true → g[i] = true := by
  unfold Within
  constructor
  · intro hfg i hi hf
    rw [← hfg, BitVec.getElem_and, Bool.and_eq_true] at hf
    exact hf.2
  · intro hfg
    ext i hi
    rw [BitVec.getElem_and]
    cases hf : f[i] with
    | false => rfl
    | true => simpa using hfg i hi hf

theorem within_or_left (f g : BitVec w) : Within f (f ||| g) := by
  rw [within_iff_getElem]
  intro i hi hf
  simp [hf]

theorem within_or_right (f g : BitVec w) : Within g (f ||| g) := by
  rw [within_iff_getElem]
  intro i hi hg
  simp [hg]

theorem or_within : Within (f ||| g) h ↔ Within f h ∧ Within g h := by
  constructor
  · intro hfg
    exact ⟨(within_or_left f g).trans hfg, (within_or_right f g).trans hfg⟩
  · rintro ⟨hf, hg⟩
    rw [within_iff_getElem] at *
    intro i hi hfg
    rw [BitVec.getElem_or, Bool.or_eq_true] at hfg
    exact hfg.elim (hf i hi) (hg i hi)

theorem or_eq_of_within (h : Within g f) : f ||| g = f :=
  (or_within.mpr ⟨.refl f, h⟩).antisymm (within_or_left f g)

theorem zero_within (f : BitVec w) : Within 0 f := BitVec.zero_and

end Flags
