import Refract.Lib.Ecma

/-!
# Laws of the stable sort

What `sortBy` returns when the comparator is a total preorder (`Std.TransCmp`): a sorted list
(`sortBy_pairwise`) that keeps the order of elements the comparator does not tell apart
(`pair_sublist_sortBy`). When the comparator tells the elements of a list apart, the order in which
they come does not matter (`sortBy_eq_of_perm`).

The default comparison of strings tells all strings apart (`codeUnits_injective`).
-/

namespace Refract.Lib

open List

universe u

variable {α : Type u} {cmp : α → α → Ordering}

/-- `a` may stand before `b`. -/
def MayPrecede (cmp : α → α → Ordering) (a b : α) : Prop := (cmp a b).isLE = true

instance (cmp : α → α → Ordering) : DecidableRel (MayPrecede cmp) :=
  fun a b => inferInstanceAs (Decidable ((cmp a b).isLE = true))

instance [Std.OrientedCmp cmp] : Std.Total (MayPrecede cmp) where
  total a b := by
    have hswap : cmp a b = (cmp b a).swap := Std.OrientedCmp.eq_swap
    cases hba : cmp b a <;> simp_all [MayPrecede]

instance [Std.TransCmp cmp] : IsTrans α (MayPrecede cmp) where
  trans _ _ _ := Std.TransCmp.isLE_trans

/-- Comparing by a key is as consistent as comparing the keys. -/
instance transCmp_key {β : Type u} [Std.TransCmp cmp] (key : β → α) :
    Std.TransCmp fun a b => cmp (key a) (key b) where
  eq_swap := Std.OrientedCmp.eq_swap
  isLE_trans := Std.TransCmp.isLE_trans

/-- Comparing by one comparator, and by another where the first does not tell apart. -/
instance transCmp_then {cmp' : α → α → Ordering} [Std.TransCmp cmp] [Std.TransCmp cmp'] :
    Std.TransCmp fun a b => (cmp a b).then (cmp' a b) :=
  inferInstanceAs (Std.TransCmp (compareLex cmp cmp'))

theorem sortBy_pairwise [Std.TransCmp cmp] (xs : List α) :
    (sortBy cmp xs).Pairwise (MayPrecede cmp) :=
  pairwise_insertionSort (MayPrecede cmp) xs

/-- Two elements in an order the comparator accepts stay in that order. -/
theorem pair_sublist_sortBy [Std.TransCmp cmp] {xs : List α} {a b : α} (h : [a, b].Sublist xs)
    (hle : MayPrecede cmp a b) : [a, b].Sublist (sortBy cmp xs) :=
  pair_sublist_insertionSort hle h

/-- In a list without repetitions two elements stand in one order only. -/
theorem eq_of_pair_sublists {l : List α} (hnd : l.Nodup) {a b : α} (hab : [a, b].Sublist l)
    (hba : [b, a].Sublist l) : a = b := by
  induction l with
  | nil => cases hab
  | cons _ _ ih =>
    rw [nodup_cons] at hnd
    cases hab with
    | cons _ hab =>
      cases hba with
      | cons _ hba => exact ih hnd.2 hab hba
      | cons_cons => exact absurd (hab.subset (by simp)) hnd.1
    | cons_cons =>
      cases hba with
      | cons _ hba => exact absurd (hba.subset (by simp)) hnd.1
      | cons_cons => rfl

theorem pair_sublist_of_mem {l : List α} {a b : α} (ha : a ∈ l) (hb : b ∈ l)
    (hne : a ≠ b) : [a, b].Sublist l ∨ [b, a].Sublist l := by
  induction l with
  | nil => cases ha
  | cons _ _ ih =>
    rcases mem_cons.1 ha with rfl | ha'
    · rcases mem_cons.1 hb with rfl | hb'
      · exact absurd rfl hne
      · exact .inl ((singleton_sublist.2 hb').cons_cons _)
    · rcases mem_cons.1 hb with rfl | hb'
      · exact .inr ((singleton_sublist.2 ha').cons_cons _)
      · exact (ih ha' hb').imp (List.Sublist.cons _) (List.Sublist.cons _)

/-- Two sorted lists with the same elements are equal if the comparator tells the elements apart. -/
theorem eq_of_perm_of_pairwise [Std.OrientedCmp cmp] {xs ys : List α} (hperm : xs.Perm ys)
    (hxs : xs.Pairwise (MayPrecede cmp)) (hys : ys.Pairwise (MayPrecede cmp))
    (hapart : ∀ a ∈ xs, ∀ b ∈ xs, cmp a b = .eq → a = b) : xs = ys := by
  refine hperm.eq_of_pairwise ?_ hxs hys
  intro a b ha hb hab hba
  exact hapart a ha b (hperm.mem_iff.2 hb) (Std.OrientedCmp.isLE_antisymm hab hba)

/-- The order in which the distinguishable elements of a part of the list come does not matter. -/
theorem filter_sortBy_eq_of_perm [Std.TransCmp cmp] {xs ys : List α} {part : α → Bool}
    (hperm : xs.Perm ys)
    (hapart : ∀ a ∈ xs, ∀ b ∈ xs, part a = true → part b = true → cmp a b = .eq → a = b) :
    (sortBy cmp xs).filter part = (sortBy cmp ys).filter part := by
  have hsort : (sortBy cmp xs).Perm (sortBy cmp ys) :=
    (sortBy_perm.trans hperm).trans sortBy_perm.symm
  refine eq_of_perm_of_pairwise (hsort.filter part) ((sortBy_pairwise xs).sublist filter_sublist)
    ((sortBy_pairwise ys).sublist filter_sublist) ?_
  intro a ha b hb
  obtain ⟨ha, hpa⟩ := mem_filter.1 ha
  obtain ⟨hb, hpb⟩ := mem_filter.1 hb
  exact hapart a (mem_sortBy.1 ha) b (mem_sortBy.1 hb) hpa hpb

/-- The order in which distinguishable elements come does not matter. -/
theorem sortBy_eq_of_perm [Std.TransCmp cmp] {xs ys : List α} (hperm : xs.Perm ys)
    (hapart : ∀ a ∈ xs, ∀ b ∈ xs, cmp a b = .eq → a = b) : sortBy cmp xs = sortBy cmp ys := by
  have h := @filter_sortBy_eq_of_perm α cmp _ xs ys (fun _ => true) hperm
    fun a ha b hb _ _ => hapart a ha b hb
  rwa [filter_true, filter_true] at h

theorem sortBy_eq_of_perm_lawful [Std.TransCmp cmp] [Std.LawfulEqCmp cmp] {xs ys : List α}
    (hperm : xs.Perm ys) : sortBy cmp xs = sortBy cmp ys :=
  sortBy_eq_of_perm hperm fun _ _ _ _ => Std.LawfulEqCmp.eq_of_compare

/-- A list without repetitions is sorted strictly. -/
theorem sortBy_pairwise_lt [Std.TransCmp cmp] [Std.LawfulEqCmp cmp] {xs : List α}
    (hnd : xs.Nodup) : (sortBy cmp xs).Pairwise fun a b => cmp a b = .lt := by
  have hdist : (sortBy cmp xs).Pairwise (· ≠ ·) := sortBy_perm.nodup_iff.2 hnd
  refine ((sortBy_pairwise xs).and hdist).imp ?_
  rintro a b ⟨hle, hne⟩
  cases hcmp : cmp a b with
  | lt => rfl
  | eq => exact absurd (Std.LawfulEqCmp.eq_of_compare hcmp) hne
  | gt => simp [MayPrecede, hcmp] at hle

/-- What stands strictly before an element of a prefix is in the prefix. -/
theorem mem_take_of_lt [Std.OrientedCmp cmp] {xs : List α} (h : xs.Pairwise (MayPrecede cmp))
    {n : Nat} {a b : α} (ha : a ∈ xs) (hb : b ∈ xs.take n) (hlt : cmp a b = .lt) :
    a ∈ xs.take n := by
  rw [← take_append_drop n xs] at h ha
  rcases mem_append.1 ha with htake | hdrop
  · exact htake
  have hle := (pairwise_append.1 h).2.2 b hb a hdrop
  have hswap : cmp b a = (cmp a b).swap := Std.OrientedCmp.eq_swap
  rw [MayPrecede, hswap, hlt] at hle
  cases hle

theorem sortBy_compare_pairwise (values : List ℚ) : (sortBy compare values).Pairwise (· ≤ ·) := by
  refine (sortBy_pairwise values).imp ?_
  intro a b hle
  exact compare_le_iff_le.1 (Ordering.ne_gt_iff_isLE.2 hle)

/-! ## The default comparison of strings -/

/-- A character is no surrogate. -/
theorem char_toNat_range (c : Char) : c.toNat < 0xD800 ∨ 0xDFFF < c.toNat ∧ c.toNat < 0x110000 := by
  have hval := c.valid
  exact hval

/-- The first unit of a character tells how many units it has. -/
theorem charUnits_append_inj {c d : Char} {us vs : List Nat}
    (h : pointUnits c.toNat ++ us = pointUnits d.toNat ++ vs) : c = d ∧ us = vs := by
  have hc := char_toNat_range c
  have hd := char_toNat_range d
  simp only [pointUnits] at h
  split at h <;> split at h
  · simp only [cons_append, nil_append, List.cons.injEq] at h
    exact ⟨Char.toNat_inj.1 h.1, h.2⟩
  · simp only [cons_append, nil_append, List.cons.injEq] at h
    omega
  · simp only [cons_append, nil_append, List.cons.injEq] at h
    omega
  · simp only [cons_append, nil_append, List.cons.injEq] at h
    obtain ⟨hhigh, hlow, hrest⟩ := h
    exact ⟨Char.toNat_inj.1 (by omega), hrest⟩

theorem pointUnits_ne_nil (n : Nat) : pointUnits n ≠ [] := by
  simp only [pointUnits]
  split <;> simp

theorem flatMap_charUnits_inj {cs ds : List Char}
    (h : (cs.flatMap fun c => pointUnits c.toNat) = ds.flatMap fun c => pointUnits c.toNat) :
    cs = ds := by
  induction cs generalizing ds with
  | nil =>
    cases ds with
    | nil => rfl
    | cons => simp [pointUnits_ne_nil] at h
  | cons _ _ ih =>
    cases ds with
    | nil => simp [pointUnits_ne_nil] at h
    | cons =>
      obtain ⟨rfl, hrest⟩ := charUnits_append_inj h
      rw [ih hrest]

theorem points_injective : Function.Injective points :=
  fun _ _ h => String.toList_injective (map_injective_iff.2 (fun _ _ => Char.toNat_inj.1) h)

theorem toWellFormed_append (s t : JsText) :
    toWellFormed (s ++ t) = toWellFormed s ++ toWellFormed t :=
  map_append

theorem toWellFormed_eq_self {text : JsText} (h : ∀ c ∈ text, isSurrogate c = false) :
    toWellFormed text = text :=
  (map_congr_left fun c hc => if_neg (by simp [h c hc])).trans (map_id text)

theorem toWellFormed_points (s : String) : toWellFormed (points s) = points s := by
  apply toWellFormed_eq_self
  intro c hc
  obtain ⟨char, -, rfl⟩ := mem_map.1 hc
  have hrange := char_toNat_range char
  simp only [isSurrogate, Bool.and_eq_false_iff, decide_eq_false_iff_not]
  omega

theorem codeUnits_injective : Function.Injective codeUnits :=
  fun _ _ h => String.toList_injective (flatMap_charUnits_inj h)

instance : Std.TransCmp compareUnits := inferInstanceAs (Std.TransCmp (compareOn codeUnits))

instance : Std.LawfulEqCmp compareUnits where
  compare_self := Std.ReflOrd.compare_self
  eq_of_compare h := codeUnits_injective (Std.LawfulEqOrd.eq_of_compare h)

instance : Std.TransCmp plainHost.localeCompare := inferInstanceAs (Std.TransCmp compareUnits)

instance : Std.LawfulEqCmp plainHost.localeCompare :=
  inferInstanceAs (Std.LawfulEqCmp compareUnits)

end Refract.Lib
