import Mathlib.Algebra.Order.BigOperators.Group.List
import Mathlib.Algebra.Order.Field.Basic
import Mathlib.Data.List.Sort
import Mathlib.Tactic.Linarith

/-!
# Weighted medians

The weighted counterpart of a median: the items at or below it carry at least half of the weight,
and so do the items at or above it (`IsWeightedMedian`). Where the weights of the sorted items add
up to half of the total is one (`isWeightedMedian_of_reached`). It cannot leave the range of the
items that carry more than half of the weight (`IsWeightedMedian.exists_of_majority`), whatever
values the others have.
-/

namespace Refract.Lib

open List

universe u v w

section Mass

variable {K : Type u} [Field K] [LinearOrder K] [IsStrictOrderedRing K] {α : Type v}
  {weight : α → K}

/-- The weight of the items that satisfy `p`. -/
def massWhere (weight : α → K) (p : α → Bool) (xs : List α) : K := ((xs.filter p).map weight).sum

/-- The weight of all items. -/
def mass (weight : α → K) (xs : List α) : K := (xs.map weight).sum

omit [LinearOrder K] [IsStrictOrderedRing K] in
theorem massWhere_append (p : α → Bool) (xs ys : List α) :
    massWhere weight p (xs ++ ys) = massWhere weight p xs + massWhere weight p ys := by
  simp only [massWhere, filter_append, map_append, sum_append]

variable {p : α → Bool} {xs : List α}

omit [LinearOrder K] [IsStrictOrderedRing K] in
theorem massWhere_eq_mass (h : ∀ x ∈ xs, p x = true) : massWhere weight p xs = mass weight xs := by
  rw [massWhere, filter_eq_self.2 h, mass]

theorem massWhere_nonneg (h : ∀ x ∈ xs, 0 ≤ weight x) : 0 ≤ massWhere weight p xs := by
  apply sum_nonneg
  exact forall_mem_map.2 fun x hx => h x (mem_of_mem_filter hx)

theorem massWhere_mono {q : α → Bool} (h : ∀ x ∈ xs, 0 ≤ weight x)
    (hpq : ∀ x ∈ xs, p x = true → q x = true) : massWhere weight p xs ≤ massWhere weight q xs := by
  have hfilter : xs.filter p = (xs.filter q).filter p := by
    rw [filter_filter]
    refine filter_congr ?_
    intro x hx
    cases hp : p x with
    | false => rfl
    | true => rw [hpq x hx hp]; rfl
  rw [massWhere, massWhere, hfilter]
  apply (filter_sublist.map weight).sum_le_sum
  exact forall_mem_map.2 fun x hx => h x (mem_of_mem_filter hx)

/-- If half of the weight satisfies `p`, then an item of a strict majority does. -/
theorem exists_of_mass_majority {good : α → Bool} (hwt : ∀ x ∈ xs, 0 ≤ weight x)
    (hmaj : 2 * massWhere weight (fun x => !good x) xs < mass weight xs)
    (hhalf : mass weight xs ≤ 2 * massWhere weight p xs) :
    ∃ x ∈ xs, good x = true ∧ p x = true := by
  by_contra hnone
  have hbad : massWhere weight p xs ≤ massWhere weight (fun x => !good x) xs := by
    apply massWhere_mono hwt
    intro x hx hp
    cases hgood : good x with
    | false => rfl
    | true => exact absurd ⟨x, hx, hgood, hp⟩ hnone
  linarith

end Mass

section Medians

variable {K : Type u} [Field K] [LinearOrder K] [IsStrictOrderedRing K] {V : Type w} [LinearOrder V]
  {α : Type v} {weight : α → K} {value : α → V}

/-- Half of the weight lies at or below `m`, and half of it at or above `m`. -/
structure IsWeightedMedian (weight : α → K) (value : α → V) (xs : List α) (m : V) : Prop where
  below : mass weight xs ≤ 2 * massWhere weight (value · ≤ m) xs
  above : mass weight xs ≤ 2 * massWhere weight (m ≤ value ·) xs

omit [IsStrictOrderedRing K] in
theorem IsWeightedMedian.perm {xs ys : List α} {m : V} (h : IsWeightedMedian weight value xs m)
    (hperm : xs.Perm ys) :
    IsWeightedMedian weight value ys m := by
  have hmass : mass weight ys = mass weight xs := (hperm.symm.map weight).sum_eq
  have hwhere : ∀ p, massWhere weight p ys = massWhere weight p xs :=
    fun p => ((hperm.symm.filter p).map weight).sum_eq
  constructor
  · rw [hmass, hwhere]
    exact h.below
  · rw [hmass, hwhere]
    exact h.above

theorem IsWeightedMedian.exists_of_majority {xs : List α} {m : V}
    (h : IsWeightedMedian weight value xs m) (hwt : ∀ x ∈ xs, 0 ≤ weight x) {good : α → Bool}
    (hmaj : 2 * massWhere weight (fun x => !good x) xs < mass weight xs) :
    (∃ x ∈ xs, good x = true ∧ value x ≤ m) ∧ ∃ x ∈ xs, good x = true ∧ m ≤ value x := by
  constructor
  · simpa using exists_of_mass_majority hwt hmaj h.below
  · simpa using exists_of_mass_majority hwt hmaj h.above

/-- The item of a sorted list with at most half of the weight before it and at least half of it up
to and including it. -/
theorem isWeightedMedian_of_reached {before after : List α} {x : α}
    (hsort : (before ++ x :: after).Pairwise fun a b => value a ≤ value b)
    (hwt : ∀ y ∈ before ++ x :: after, 0 ≤ weight y)
    (hbef : 2 * mass weight before ≤ mass weight (before ++ x :: after))
    (hreach : mass weight (before ++ x :: after) ≤ 2 * mass weight (before ++ [x])) :
    IsWeightedMedian weight value (before ++ x :: after) (value x) := by
  obtain ⟨-, hafter, hcross⟩ := pairwise_append.1 hsort
  have hsplit : ∀ p, massWhere weight p (before ++ x :: after) =
      massWhere weight p (before ++ [x]) + massWhere weight p after := by
    intro p
    rw [← massWhere_append, append_assoc]
    rfl
  constructor
  · -- Everything up to the item is at or below it.
    have hlow : massWhere weight (value · ≤ value x) (before ++ [x]) =
        mass weight (before ++ [x]) := by
      apply massWhere_eq_mass
      intro y hy
      rcases mem_append.1 hy with hy | hy
      · exact decide_eq_true (hcross y hy x mem_cons_self)
      · rw [mem_singleton.1 hy]
        exact decide_eq_true le_rfl
    have hrest : 0 ≤ massWhere weight (value · ≤ value x) after :=
      massWhere_nonneg fun y hy => hwt y (by simp [hy])
    rw [hsplit, hlow]
    linarith
  · -- Everything from the item on is at or above it.
    have hhigh : massWhere weight (value x ≤ value ·) (x :: after) = mass weight (x :: after) := by
      apply massWhere_eq_mass
      intro y hy
      rcases mem_cons.1 hy with rfl | hy
      · exact decide_eq_true le_rfl
      · exact decide_eq_true ((pairwise_cons.1 hafter).1 y hy)
    have hrest : 0 ≤ massWhere weight (value x ≤ value ·) before :=
      massWhere_nonneg fun y hy => hwt y (by simp [hy])
    have htot : mass weight (before ++ x :: after) =
        mass weight before + mass weight (x :: after) := by
      rw [mass, map_append, sum_append]
      rfl
    rw [massWhere_append, hhigh]
    linarith

end Medians

end Refract.Lib
