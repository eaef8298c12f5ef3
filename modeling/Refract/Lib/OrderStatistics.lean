import Mathlib.Algebra.Order.Field.Basic
import Mathlib.Data.List.Sort
import Mathlib.Tactic.Linarith

/-!
# Medians of lists

A median of a list is a number that at least half of the entries do not exceed and that does not
exceed at least half of the entries (`IsMedian`). The middle of the sorted list is one
(`isMedian_of_middle`). A median cannot leave the range of a strict majority of the entries
(`IsMedian.exists_of_majority`), whatever the others are.
-/

namespace Refract.Lib

open List

universe u v

section Medians

variable {K : Type u} [LinearOrder K] {α : Type v}

/-- At least half of the entries are at most `m`, and at least half of them at least `m`. -/
structure IsMedian (xs : List K) (m : K) : Prop where
  nonempty : xs ≠ []
  below : xs.length ≤ 2 * xs.countP (· ≤ m)
  above : xs.length ≤ 2 * xs.countP (m ≤ ·)

variable {xs : List K} {m : K}

theorem IsMedian.perm {ys : List K} (h : IsMedian xs m) (hperm : xs.Perm ys) : IsMedian ys m where
  nonempty := by
    rintro rfl
    exact h.nonempty hperm.eq_nil
  below := by
    rw [← hperm.length_eq, ← hperm.countP_eq]
    exact h.below
  above := by
    rw [← hperm.length_eq, ← hperm.countP_eq]
    exact h.above

/-- If half of the values satisfy `p`, then one of a strict majority of the entries does. -/
theorem exists_of_majority {β : Type*} {xs : List α} {f : α → β} {good : α → Bool} {p : β → Bool}
    (hmaj : xs.countP (fun x => !good x) < xs.countP good)
    (hhalf : (xs.map f).length ≤ 2 * (xs.map f).countP p) :
    ∃ x ∈ xs, good x = true ∧ p (f x) = true := by
  by_contra hnone
  rw [length_map, countP_map] at hhalf
  have hbad : xs.countP (p ∘ f) ≤ xs.countP (fun x => !good x) := by
    refine countP_mono_left ?_
    intro x hx hp
    cases hgood : good x with
    | false => rfl
    | true => exact absurd ⟨x, hx, hgood, hp⟩ hnone
  have hsplit := length_eq_countP_add_countP good (l := xs)
  simp only [Bool.decide_eq_false, Bool.not_eq_true] at hsplit
  omega

theorem IsMedian.exists_of_majority {xs : List α} {f : α → K} (h : IsMedian (xs.map f) m)
    {good : α → Bool} (hmaj : xs.countP (fun x => !good x) < xs.countP good) :
    (∃ x ∈ xs, good x = true ∧ f x ≤ m) ∧ ∃ x ∈ xs, good x = true ∧ m ≤ f x := by
  constructor
  · simpa using Lib.exists_of_majority hmaj h.below
  · simpa using Lib.exists_of_majority hmaj h.above

/-- A median lies in every interval that holds all entries. -/
theorem IsMedian.mem_Icc {a b : K} (h : IsMedian xs m)
    (hxs : ∀ x ∈ xs, a ≤ x ∧ x ≤ b) : a ≤ m ∧ m ≤ b := by
  have hall : xs.countP (fun x => !(fun _ => true) x) < xs.countP fun _ => true := by
    simpa [length_pos_iff] using h.nonempty
  have hmap : IsMedian (xs.map id) m := by
    rw [map_id]
    exact h
  obtain ⟨⟨x, hx, -, hle⟩, y, hy, -, hge⟩ := hmap.exists_of_majority hall
  exact ⟨(hxs x hx).1.trans hle, hge.trans (hxs y hy).2⟩

theorem min?_eq_of_perm {ys : List K} (h : xs.Perm ys) : xs.min? = ys.min? := by
  cases hys : ys.min? with
  | none =>
    have hnil := min?_eq_none_iff.1 hys
    subst hnil
    rw [h.eq_nil]
    rfl
  | some =>
    rw [min?_eq_some_iff] at hys ⊢
    exact ⟨h.mem_iff.2 hys.1, fun b hb => hys.2 b (h.mem_iff.1 hb)⟩

theorem max?_eq_of_perm {ys : List K} (h : xs.Perm ys) : xs.max? = ys.max? :=
  min?_eq_of_perm (K := Kᵒᵈ) h

/-- A number between two entries lies between the extrema. -/
theorem between_extrema {a b : K} (ha : a ∈ xs) (hb : b ∈ xs) (ham : a ≤ m)
    (hmb : m ≤ b) : ∃ lo hi, xs.min? = some lo ∧ xs.max? = some hi ∧ lo ≤ m ∧ m ≤ hi := by
  obtain ⟨lo, hlo⟩ := Option.isSome_iff_exists.1 (isSome_min?_of_mem ha)
  obtain ⟨hi, hhi⟩ := Option.isSome_iff_exists.1 (isSome_max?_of_mem hb)
  refine ⟨lo, hi, hlo, hhi, ?_, ?_⟩
  · exact ((min?_eq_some_iff.1 hlo).2 _ ha).trans ham
  · exact hmb.trans ((max?_eq_some_iff.1 hhi).2 _ hb)

/-! ## Positions in a sorted list -/

theorem succ_le_countP_le {l : List K} (h : l.Pairwise (· ≤ ·)) {k : Nat} {x : K}
    (hx : l[k]? = some x) (hm : x ≤ m) : k + 1 ≤ l.countP (· ≤ m) := by
  obtain ⟨hk, rfl⟩ := List.getElem?_eq_some_iff.1 hx
  have htake : (l.take (k + 1)).countP (· ≤ m) = (l.take (k + 1)).length := by
    refine countP_eq_length.2 ?_
    intro y hy
    obtain ⟨i, hi, rfl⟩ := mem_iff_getElem.1 hy
    rw [length_take] at hi
    rw [getElem_take, decide_eq_true_eq]
    rcases Nat.lt_or_ge i k with hlt | hge
    · exact (pairwise_iff_getElem.1 h i k (by omega) hk hlt).trans hm
    · obtain rfl : i = k := by omega
      exact hm
  have hle : (l.take (k + 1)).countP (· ≤ m) ≤ l.countP (· ≤ m) :=
    (take_sublist (k + 1) l).countP_le
  rw [htake, length_take] at hle
  omega

theorem sub_le_countP_ge {l : List K} (h : l.Pairwise (· ≤ ·)) {k : Nat} {x : K}
    (hx : l[k]? = some x) (hm : m ≤ x) : l.length - k ≤ l.countP (m ≤ ·) := by
  obtain ⟨hk, rfl⟩ := List.getElem?_eq_some_iff.1 hx
  have hdrop : (l.drop k).countP (m ≤ ·) = (l.drop k).length := by
    refine countP_eq_length.2 ?_
    intro y hy
    obtain ⟨i, hi, rfl⟩ := mem_iff_getElem.1 hy
    rw [length_drop] at hi
    rw [getElem_drop, decide_eq_true_eq]
    rcases Nat.eq_zero_or_pos i with rfl | hpos
    · exact hm
    · exact hm.trans (pairwise_iff_getElem.1 h k (k + i) hk (by omega) (by omega))
  have hle : (l.drop k).countP (m ≤ ·) ≤ l.countP (m ≤ ·) := (drop_sublist k l).countP_le
  rw [hdrop, length_drop] at hle
  exact hle

end Medians

/-! ## The middle of a sorted list -/

section Middle

variable {K : Type u} [Field K] [LinearOrder K] [IsStrictOrderedRing K]

/-- The middle entry, or the mean of the two middle entries. -/
def middle (sorted : List K) : Option K :=
  if sorted.length % 2 = 1 then sorted[sorted.length / 2]?
  else match sorted[sorted.length / 2 - 1]?, sorted[sorted.length / 2]? with
    | some lo, some hi => some ((lo + hi) / 2)
    | _, _ => none

omit [LinearOrder K] [IsStrictOrderedRing K] in
theorem middle_isSome {sorted : List K} (h : sorted ≠ []) : ∃ m, middle sorted = some m := by
  have hpos := length_pos_iff.2 h
  unfold middle
  split
  · exact ⟨_, getElem?_eq_getElem (by omega)⟩
  rw [getElem?_eq_getElem (show sorted.length / 2 - 1 < sorted.length by omega),
    getElem?_eq_getElem (show sorted.length / 2 < sorted.length by omega)]
  exact ⟨_, rfl⟩

theorem isMedian_of_middle {l : List K} (h : l.Pairwise (· ≤ ·)) {m : K}
    (hm : middle l = some m) : IsMedian l m := by
  have hne : l ≠ [] := by
    rintro rfl
    cases hm
  unfold middle at hm
  split at hm
  · rename_i hodd
    have hbelow := succ_le_countP_le h hm le_rfl
    have habove := sub_le_countP_ge h hm le_rfl
    exact ⟨hne, by omega, by omega⟩
  split at hm
  · rename_i lo hi hlo hhi
    cases hm
    -- The mean lies between the two middle entries.
    have hle : lo ≤ hi := by
      obtain ⟨hi₁, rfl⟩ := List.getElem?_eq_some_iff.1 hlo
      obtain ⟨hi₂, rfl⟩ := List.getElem?_eq_some_iff.1 hhi
      exact pairwise_iff_getElem.1 h _ _ hi₁ hi₂ (by omega)
    have hbelow := succ_le_countP_le h hlo (show lo ≤ (lo + hi) / 2 by linarith)
    have habove := sub_le_countP_ge h hhi (show (lo + hi) / 2 ≤ hi by linarith)
    exact ⟨hne, by omega, by omega⟩
  · cases hm

end Middle

end Refract.Lib
