import Mathlib.Algebra.Ring.Nat

/-!
# Arithmetic of bounded width

The operations a program computes its positions and lengths with, as a parameter
of what is proved about it: over the integers (`Arith.exact`) or in words of 32
bits (`Arith.uint32`).  `ExactBelow A N` says that results below `N` are those
over the integers, which is all most proofs need:

    Arith.exact   is exact below every N
    Arith.uint32  is exact below 2 ^ 32
-/

structure Arith where
  add : Nat → Nat → Nat
  sub : Nat → Nat → Nat
  mul : Nat → Nat → Nat

namespace Arith

/-- Over the integers. -/
def exact : Arith where
  add a b := a + b
  sub a b := a - b
  mul a b := a * b

/-- `uint32_t` -/
def uint32 : Arith where
  add a b := (a + b) % 2 ^ 32
  sub a b := (a + 2 ^ 32 - b) % 2 ^ 32
  mul a b := (a * b) % 2 ^ 32

/-- Results below `N` are those over the integers. -/
structure ExactBelow (A : Arith) (N : Nat) : Prop where
  add : ∀ {a b}, a + b < N → A.add a b = a + b
  sub : ∀ {a b}, b ≤ a → a < N → A.sub a b = a - b
  mul : ∀ {a b}, a * b < N → A.mul a b = a * b

/-- The number as the arithmetic represents it. -/
def norm (A : Arith) (n : Nat) : Nat := A.add 0 n

/-- A sum does not depend on how its summands are represented. -/
structure Lawful (A : Arith) : Prop where
  zero : A.norm 0 = 0
  norm_add : ∀ a b, A.add (A.norm a) b = A.norm (a + b)
  add_add : ∀ a b c, A.add a (A.add b c) = A.add a (b + c)

@[simp] theorem exact_add (a b : Nat) : exact.add a b = a + b := rfl

@[simp] theorem exact_sub (a b : Nat) : exact.sub a b = a - b := rfl

theorem exact_lawful : exact.Lawful where
  zero := rfl
  norm_add a b := by simp only [norm, exact, Nat.zero_add]
  add_add _ _ _ := rfl

theorem uint32_lawful : uint32.Lawful where
  zero := rfl
  norm_add a b := by simp only [norm, uint32, Nat.zero_add, Nat.mod_add_mod]
  add_add a b c := by simp only [uint32, Nat.add_mod_mod]

theorem exact_exactBelow (N : Nat) : exact.ExactBelow N :=
  ⟨fun _ => rfl, fun _ _ => rfl, fun _ => rfl⟩

theorem uint32_exactBelow : uint32.ExactBelow (2 ^ 32) where
  add h := Nat.mod_eq_of_lt h
  sub h h' := by
    simp only [uint32]
    omega
  mul h := Nat.mod_eq_of_lt h

theorem ExactBelow.mono {A : Arith} {M N : Nat} (hA : A.ExactBelow N) (h : M ≤ N) :
    A.ExactBelow M where
  add h' := hA.add (Nat.lt_of_lt_of_le h' h)
  sub h' h'' := hA.sub h' (Nat.lt_of_lt_of_le h'' h)
  mul h' := hA.mul (Nat.lt_of_lt_of_le h' h)

/-- A sum that does not fit, but for one wrap around. -/
theorem uint32_add_of_le {a b : Nat} (h : 2 ^ 32 ≤ a + b) (h' : a + b < 2 ^ 32 + 2 ^ 32) :
    uint32.add a b = a + b - 2 ^ 32 := by
  change (a + b) % 2 ^ 32 = _
  rw [Nat.mod_eq_sub_mod h, Nat.mod_eq_of_lt (by omega)]

end Arith
