import Mathlib.Algebra.Order.BigOperators.Group.List
import Mathlib.Algebra.Order.Group.MinMax

/-!
# Taking an amount from a list of pots in order

`drain` takes from each pot as much as it holds until the amount is used up. In total it takes the
amount, or everything if that is less (`sum_drain`), and never more from a pot than it holds
(`drain_bounds`).
-/

namespace Refract.Lib

open List

universe u

variable {K : Type u} [AddCommGroup K] [LinearOrder K] [IsOrderedAddMonoid K]

/-- What is taken from each pot. -/
def drain (amount : K) : List K → List K
  | [] => []
  | pot :: rest => min pot amount :: drain (amount - min pot amount) rest

variable {pots : List K}

omit [IsOrderedAddMonoid K] in
/-- Nothing is taken of nothing. -/
theorem drain_zero (hpots : ∀ pot ∈ pots, 0 ≤ pot) : drain 0 pots = pots.map fun _ => 0 := by
  induction pots with
  | nil => rfl
  | cons pot _ ih =>
    rw [drain, min_eq_right (hpots pot mem_cons_self), sub_zero, map_cons,
      ih fun pot' h => hpots pot' (mem_cons_of_mem _ h)]

/-- No more is taken from a pot than it holds. -/
theorem drain_bounds {amount : K} (hamt : 0 ≤ amount) (hpots : ∀ pot ∈ pots, 0 ≤ pot) :
    List.Forall₂ (fun take pot => 0 ≤ take ∧ take ≤ pot) (drain amount pots) pots := by
  induction pots generalizing amount with
  | nil => exact .nil
  | cons pot _ ih =>
    refine .cons ⟨le_min (hpots pot mem_cons_self) hamt, min_le_left _ _⟩ ?_
    apply ih (sub_nonneg.2 (min_le_right _ _))
    intro pot' hpot'
    exact hpots pot' (mem_cons_of_mem _ hpot')

/-- The amount is taken, or everything there is. -/
theorem sum_drain {amount : K} (hamt : 0 ≤ amount)
    (hpots : ∀ pot ∈ pots, 0 ≤ pot) : (drain amount pots).sum = min amount pots.sum := by
  induction pots generalizing amount with
  | nil => simp [drain, hamt]
  | cons pot rest ih =>
    have hrest : ∀ pot' ∈ rest, 0 ≤ pot' := fun pot' h => hpots pot' (mem_cons_of_mem _ h)
    have hsum : 0 ≤ rest.sum := sum_nonneg hrest
    rw [drain, sum_cons, sum_cons, ih (sub_nonneg.2 (min_le_right _ _)) hrest]
    rcases le_total pot amount with hle | hle
    · rw [min_eq_left hle, ← min_add_add_left, add_sub_cancel]
    · rw [min_eq_right hle, sub_self, min_eq_left hsum, add_zero, min_eq_left]
      exact hle.trans (le_add_of_nonneg_right hsum)

end Refract.Lib
