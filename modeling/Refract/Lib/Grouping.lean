import Mathlib.Data.List.Dedup
import Refract.Lib.OrdMap

/-!
# Grouping a list by a key

`groupBy` files the elements of a list in a map under their keys, as a loop that pushes each element
to the list at its key does. Its entries are, up to order, the distinct keys with the elements of
each (`entries_groupBy_perm`). The elements that share their key with no other are those of the
groups with one member (`standsAlone_perm`).
-/

namespace Refract.Lib

open List

universe u v

variable {K : Type u} [DecidableEq K] {α : Type v}

/-- One iteration of the grouping loop. -/
def pushGroup (key : α → K) (groups : OrdMap K (List α)) (x : α) : OrdMap K (List α) :=
  groups.set (key x) ((groups.get? (key x)).getD [] ++ [x])

/-- The elements by their keys. -/
def groupBy (key : α → K) (xs : List α) : OrdMap K (List α) :=
  xs.foldl (pushGroup key) OrdMap.empty

/-- The elements with the key `k`, in order. -/
def groupAt (key : α → K) (xs : List α) (k : K) : List α := xs.filter fun x => key x = k

variable {key : α → K} {xs : List α} {k : K}

theorem groupAt_eq_nil : groupAt key xs k = [] ↔ k ∉ xs.map key := by
  simp [groupAt, filter_eq_nil_iff]

variable {x : α}

theorem mem_groupAt : x ∈ groupAt key xs k ↔ x ∈ xs ∧ key x = k := by
  simp [groupAt]

theorem get?_groupBy (key : α → K) (xs : List α) (k : K) :
    (groupBy key xs).get? k = if k ∈ xs.map key then some (groupAt key xs k) else none := by
  -- The loop appends at the end, so the induction takes the last element off.
  induction xs using List.reverseRecOn with
  | nil => rfl
  | append_singleton xs x ih =>
    have hstep : groupBy key (xs ++ [x]) = pushGroup key (groupBy key xs) x := by
      rw [groupBy, foldl_append]
      rfl
    rw [hstep, pushGroup, OrdMap.get?_set]
    by_cases hk : k = key x
    · subst hk
      have hlast : key x ∈ (xs ++ [x]).map key := by simp
      have hbef : ((groupBy key xs).get? (key x)).getD [] = groupAt key xs (key x) := by
        rw [ih]
        split
        · rfl
        · rename_i hnew
          exact (groupAt_eq_nil.2 hnew).symm
      rw [if_pos rfl, if_pos hlast, hbef]
      simp [groupAt]
    · rw [if_neg hk, ih]
      simp [groupAt, hk, Ne.symm hk]

/-- The entries of a grouping are the distinct keys, each with its elements. -/
theorem entries_groupBy_perm (key : α → K) (xs : List α) :
    (groupBy key xs).entries.Perm ((xs.map key).dedup.map fun k => (k, groupAt key xs k)) := by
  have hents : (groupBy key xs).entries.Nodup := (groupBy key xs).nodup.of_map
  have hkeys : ((xs.map key).dedup.map fun k => (k, groupAt key xs k)).Nodup :=
    (nodup_dedup _).map fun _ _ h => (Prod.mk.inj h).1
  refine (perm_ext_iff_of_nodup hents hkeys).2 ?_
  rintro ⟨k, group⟩
  rw [OrdMap.mem_entries_iff, get?_groupBy]
  constructor
  · intro h
    split at h
    · rename_i hk
      cases h
      exact mem_map.2 ⟨k, mem_dedup.2 hk, rfl⟩
    · cases h
  · intro h
    obtain ⟨k', hk', heq⟩ := mem_map.1 h
    cases heq
    exact if_pos (mem_dedup.1 hk')

variable {group : List α}

theorem mem_of_groupBy (h : (k, group) ∈ (groupBy key xs).entries) (hx : x ∈ group) : x ∈ xs := by
  obtain ⟨k', -, heq⟩ := mem_map.1 ((entries_groupBy_perm key xs).mem_iff.1 h)
  cases heq
  exact (mem_groupAt.1 hx).1

theorem exists_mem_groupBy (key : α → K) (hx : x ∈ xs) :
    ∃ entry ∈ (groupBy key xs).entries, x ∈ entry.2 := by
  refine ⟨(key x, groupAt key xs (key x)), ?_, mem_groupAt.2 ⟨hx, rfl⟩⟩
  rw [(entries_groupBy_perm key xs).mem_iff]
  exact mem_map.2 ⟨key x, mem_dedup.2 (mem_map_of_mem hx), rfl⟩

theorem groupAt_perm {ys : List α} (h : xs.Perm ys) (k : K) :
    (groupAt key xs k).Perm (groupAt key ys k) :=
  h.filter _

/-! ## Elements without a rival -/

/-- No other element of the list has the key of `x`. -/
def standsAlone (key : α → K) (xs : List α) (x : α) : Bool :=
  decide ((groupAt key xs (key x)).length = 1)

/-- The member of a list with one member. -/
def onlyMember : List α → Option α
  | [x] => some x
  | _ => none

theorem onlyMember_eq_some : onlyMember group = some x ↔ group = [x] := by
  rcases group with _ | ⟨y, _ | ⟨z, rest⟩⟩ <;> simp [onlyMember]

theorem onlyMember_groupAt :
    onlyMember (groupAt key xs k) = some x ↔
      (x ∈ xs ∧ standsAlone key xs x = true) ∧ key x = k := by
  rw [onlyMember_eq_some, standsAlone, decide_eq_true_eq]
  constructor
  · intro h
    have hx : x ∈ groupAt key xs k := by simp [h]
    obtain ⟨hmem, rfl⟩ := mem_groupAt.1 hx
    exact ⟨⟨hmem, by simp [h]⟩, rfl⟩
  · rintro ⟨⟨hmem, hone⟩, rfl⟩
    obtain ⟨y, hy⟩ := length_eq_one_iff.1 hone
    have hx : x ∈ groupAt key xs (key x) := mem_groupAt.2 ⟨hmem, rfl⟩
    rw [hy, mem_singleton] at hx
    rw [hy, hx]

theorem nodup_standsAlone (key : α → K) (xs : List α) : (xs.filter (standsAlone key xs)).Nodup := by
  rw [nodup_iff_sublist]
  intro x htwice
  have hx : standsAlone key xs x = true := (mem_filter.1 (htwice.subset (by simp))).2
  -- Both copies would be in the group of `x`.
  have hgroup : [x, x].Sublist (groupAt key xs (key x)) := by
    have h := (htwice.trans filter_sublist).filter fun y => key y = key x
    simpa [groupAt] using h
  have hlen := hgroup.length_le
  rw [standsAlone, decide_eq_true_eq] at hx
  simp [hx] at hlen

/-- The elements without a rival are the members of the groups with one member. -/
theorem standsAlone_perm (key : α → K) (xs : List α) :
    ((xs.map key).dedup.filterMap fun k => onlyMember (groupAt key xs k)).Perm
      (xs.filter (standsAlone key xs)) := by
  have hgroups : ((xs.map key).dedup.filterMap fun k => onlyMember (groupAt key xs k)).Nodup := by
    refine List.Nodup.filterMap ?_ (nodup_dedup _)
    intro k k' x hk hk'
    exact (onlyMember_groupAt.1 hk).2.symm.trans (onlyMember_groupAt.1 hk').2
  refine (perm_ext_iff_of_nodup hgroups (nodup_standsAlone key xs)).2 ?_
  intro x
  rw [mem_filterMap, mem_filter]
  constructor
  · rintro ⟨k, -, hk⟩
    exact (onlyMember_groupAt.1 hk).1
  · intro h
    exact ⟨key x, mem_dedup.2 (mem_map_of_mem h.1), onlyMember_groupAt.2 ⟨h, rfl⟩⟩

/-- `[...new Set(keys)]` has no repetitions. -/
theorem nodup_eraseDups (keys : List K) : keys.eraseDups.Nodup := by
  -- The recursion filters the rest, so the induction is on the length.
  induction hlen : keys.length using Nat.strong_induction_on generalizing keys with
  | _ _ ih =>
    cases keys with
    | nil => exact nodup_nil
    | cons =>
      rw [eraseDups_cons, nodup_cons]
      constructor
      · simp [mem_eraseDups]
      · refine ih _ ?_ _ rfl
        rw [← hlen, length_cons]
        exact Nat.lt_succ_of_le (length_filter_le _ _)

end Refract.Lib
