import Mathlib.Algebra.BigOperators.Group.Finset.Basic
import Mathlib.Algebra.BigOperators.Intervals
import Mathlib.Algebra.Order.BigOperators.Group.Finset

/-!
# Totals over a family when one member changes

A total `∑ t, f (g t)` over a finite family, kept in step with an update of one
member: what the member counted before leaves the total, what it counts now
enters it.
-/

namespace Sums

variable {ι β : Type*} [Fintype ι]

/-- The total after member `i` becomes `v`, without subtraction. -/
theorem sum_update [DecidableEq ι] (f : β → Nat) (g : ι → β) (i : ι) (v : β) :
    ∑ t, f (Function.update g i v t) + f (g i) = ∑ t, f (g t) + f v := by
  rw [← Finset.add_sum_erase Finset.univ (fun t => f (Function.update g i v t)) (Finset.mem_univ i),
    ← Finset.add_sum_erase Finset.univ (fun t => f (g t)) (Finset.mem_univ i)]
  have herase : ∑ t ∈ Finset.univ.erase i, f (Function.update g i v t) =
      ∑ t ∈ Finset.univ.erase i, f (g t) := by
    apply Finset.sum_congr rfl
    intro t ht
    rw [Function.update_of_ne (Finset.ne_of_mem_erase ht)]
  rw [herase, Function.update_self]
  omega

end Sums
