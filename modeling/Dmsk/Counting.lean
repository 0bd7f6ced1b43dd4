import Mathlib.Algebra.BigOperators.Group.Finset.Piecewise
import Mathlib.Algebra.BigOperators.Ring.Finset
import Mathlib.Data.Fintype.BigOperators

/-!
# Sums over the threads of a system when one of them moves

A quantity that every thread contributes to (references held, items in hand)
changes by the difference of what the moving thread contributed before and
after. The equations are written without subtraction, so they hold in every
commutative monoid.
-/

namespace Dmsk

open Finset

variable {ι β M : Type} [Fintype ι] [DecidableEq ι]

theorem sum_update [AddCommMonoid M] (f : β → M) (g : ι → β) (i : ι) (v : β) :
    ∑ j, f (Function.update g i v j) + f (g i) = ∑ j, f (g j) + f v := by
  have hu : (fun j => f (Function.update g i v j)) = Function.update (fun j => f (g j)) i (f v) := by
    funext j
    by_cases hj : j = i
    · subst hj; simp
    · simp [hj]
  rw [hu, sum_update_of_mem (mem_univ i), sdiff_singleton_eq_erase,
    ← add_sum_erase univ (fun j => f (g j)) (mem_univ i)]
  ac_rfl

theorem sum_update_same [AddCommMonoid M] (f : β → M) (g : ι → β) (i : ι) (v : β) (h : f v = f (g i)) :
    ∑ j, f (Function.update g i v j) = ∑ j, f (g j) := by
  apply sum_congr rfl
  intro j _
  by_cases hj : j = i
  · subst hj; simp [h]
  · simp [hj]

end Dmsk
