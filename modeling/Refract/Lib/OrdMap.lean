import Mathlib.Data.List.Induction
import Mathlib.Data.List.Nodup
import Mathlib.Algebra.BigOperators.Group.List.Basic
import Mathlib.Tactic.Linarith
import Mathlib.Tactic.Abel

/-!
# Insertion-ordered maps

A finite map that remembers the order in which its keys were first set, as the `Map` of
ECMAScript does: setting a present key replaces the value in place, setting an absent key appends
it, deleting a key closes the gap. Keys are distinct by construction (`OrdMap.nodup`), so a lookup
determines the entry (`OrdMap.mem_entries_iff`).

The reading laws are `get?_empty`, `get?_set`, `get?_delete` and `mem_values_iff`; `sum_values_set`
gives the effect of one `set` on a sum over the values.
-/

namespace Refract.Lib

open List

universe u v w

variable {K : Type u} {V : Type v} [DecidableEq K]

/-- Replace the value at `k` where it stands, or append a new entry. -/
def setEntries (k : K) (v : V) : List (K × V) → List (K × V)
  | [] => [(k, v)]
  | (k', v') :: rest => if k' = k then (k, v) :: rest else (k', v') :: setEntries k v rest

/-- The value stored at `k`. -/
def lookupEntries (k : K) : List (K × V) → Option V
  | [] => none
  | (k', v') :: rest => if k' = k then some v' else lookupEntries k rest

theorem mem_keys_setEntries (k a : K) (v : V) (l : List (K × V)) :
    a ∈ (setEntries k v l).map Prod.fst ↔ a = k ∨ a ∈ l.map Prod.fst := by
  induction l with
  | nil => simp [setEntries]
  | cons p _ ih =>
    obtain ⟨k', v'⟩ := p
    by_cases h : k' = k
    · subst h
      simp [setEntries]
    · simp only [setEntries, if_neg h, map_cons, mem_cons, ih]
      tauto

theorem nodup_setEntries (k : K) (v : V) (l : List (K × V)) (h : (l.map Prod.fst).Nodup) :
    ((setEntries k v l).map Prod.fst).Nodup := by
  induction l with
  | nil => simp [setEntries]
  | cons p _ ih =>
    obtain ⟨k', v'⟩ := p
    simp only [map_cons, nodup_cons] at h
    by_cases hk : k' = k
    · subst hk
      simpa [setEntries] using h
    · simp only [setEntries, if_neg hk, map_cons, nodup_cons, mem_keys_setEntries]
      exact ⟨fun hmem => hmem.elim hk h.1, ih h.2⟩

/-- An insertion-ordered map with distinct keys. -/
structure OrdMap (K : Type u) (V : Type v) where
  entries : List (K × V)
  nodup : (entries.map Prod.fst).Nodup
  deriving DecidableEq

namespace OrdMap

/-- The empty map. -/
def empty : OrdMap K V := ⟨[], nodup_nil⟩

/-- The value at `k`, if any. -/
def get? (m : OrdMap K V) (k : K) : Option V := lookupEntries k m.entries

/-- Set the value at `k`; a present key keeps its position. -/
def set (m : OrdMap K V) (k : K) (v : V) : OrdMap K V :=
  ⟨setEntries k v m.entries, nodup_setEntries k v m.entries m.nodup⟩

/-- Remove the entry at `k`. -/
def delete (m : OrdMap K V) (k : K) : OrdMap K V :=
  ⟨m.entries.filter (fun p => p.1 ≠ k), (m.nodup.sublist (List.Sublist.map _ filter_sublist))⟩

/-- The entries whose value has a property. -/
def filterValues (m : OrdMap K V) (p : V → Bool) : OrdMap K V :=
  ⟨m.entries.filter fun e => p e.2, m.nodup.sublist (filter_sublist.map _)⟩

/-- The number of entries. -/
def size (m : OrdMap K V) : Nat := m.entries.length

/-- The values in order. -/
def values (m : OrdMap K V) : List V := m.entries.map Prod.snd

/-- The keys in order. -/
def keys (m : OrdMap K V) : List K := m.entries.map Prod.fst

/-- A key with a value. -/
def contains (m : OrdMap K V) (k : K) : Bool := (m.get? k).isSome

variable {m : OrdMap K V} {a k : K} {v w : V} {l : List (K × V)}

@[simp] theorem get?_empty : (empty : OrdMap K V).get? k = none := rfl

theorem lookupEntries_setEntries :
    lookupEntries a (setEntries k v l) = if a = k then some v else lookupEntries a l := by
  induction l with
  | nil =>
    by_cases h : a = k
    · subst h
      simp [setEntries, lookupEntries]
    · simp [setEntries, lookupEntries, h, Ne.symm h]
  | cons p _ ih =>
    obtain ⟨k', v'⟩ := p
    by_cases hk : k' = k
    · subst hk
      by_cases h : a = k'
      · subst h
        simp [setEntries, lookupEntries]
      · simp [setEntries, lookupEntries, h, Ne.symm h]
    · by_cases h : k' = a
      · subst h
        simp [setEntries, lookupEntries, hk]
      · simp only [setEntries, if_neg hk, lookupEntries, if_neg h, ih]

theorem get?_set : (m.set k v).get? a = if a = k then some v else m.get? a :=
  lookupEntries_setEntries

@[simp] theorem get?_set_self : (m.set k v).get? k = some v := by
  rw [get?_set, if_pos rfl]

theorem get?_set_of_ne (h : a ≠ k) : (m.set k v).get? a = m.get? a := by
  rw [get?_set, if_neg h]

/-- An entry after `set` is the new one or an old one at another key. -/
theorem get?_set_eq_some_iff :
    (m.set k v).get? a = some w ↔ (a = k ∧ w = v) ∨ (a ≠ k ∧ m.get? a = some w) := by
  rw [get?_set]
  by_cases h : a = k
  · simp [h, eq_comm]
  · simp [h]

/-- What holds of the entries and of a new one holds after `set`. -/
theorem forall_get?_set {P : K → V → Prop} (h : ∀ a w, m.get? a = some w → P a w) (hnew : P k v) :
    ∀ a w, (m.set k v).get? a = some w → P a w := by
  intro a w hget
  rcases get?_set_eq_some_iff.1 hget with ⟨rfl, rfl⟩ | ⟨-, hold⟩
  · exact hnew
  · exact h a w hold

theorem lookupEntries_filter_ne :
    lookupEntries a (l.filter (fun p => p.1 ≠ k)) = if a = k then none else lookupEntries a l := by
  induction l with
  | nil => simp [lookupEntries]
  | cons p _ ih =>
    obtain ⟨k', v'⟩ := p
    by_cases hk : k' = k
    · subst hk
      by_cases ha : a = k'
      · subst ha
        simpa [lookupEntries] using ih
      · simpa [lookupEntries, ha, Ne.symm ha] using ih
    · by_cases ha : k' = a
      · subst ha
        simp [lookupEntries, hk]
      · simpa [lookupEntries, hk, ha] using ih

theorem get?_delete : (m.delete k).get? a = if a = k then none else m.get? a :=
  lookupEntries_filter_ne

theorem get?_delete_eq_some_iff : (m.delete k).get? a = some w ↔ a ≠ k ∧ m.get? a = some w := by
  rw [get?_delete]
  by_cases h : a = k <;> simp [h]

theorem mem_of_lookupEntries (h : lookupEntries k l = some v) : (k, v) ∈ l := by
  induction l with
  | nil => simp [lookupEntries] at h
  | cons p _ ih =>
    obtain ⟨k', v'⟩ := p
    by_cases hk : k' = k
    · subst hk
      simp only [lookupEntries, if_true, Option.some.injEq] at h
      subst h
      exact mem_cons_self
    · simp only [lookupEntries, if_neg hk] at h
      exact mem_cons_of_mem _ (ih h)

theorem lookupEntries_of_mem (hn : (l.map Prod.fst).Nodup) (h : (k, v) ∈ l) :
    lookupEntries k l = some v := by
  induction l with
  | nil => simp at h
  | cons p _ ih =>
    obtain ⟨k', v'⟩ := p
    simp only [map_cons, nodup_cons] at hn
    rcases mem_cons.1 h with heq | hmem
    · cases heq
      simp [lookupEntries]
    have hne : k' ≠ k := by
      rintro rfl
      exact hn.1 (mem_map_of_mem hmem)
    simp only [lookupEntries, if_neg hne]
    exact ih hn.2 hmem

/-- A lookup determines the entry. -/
theorem mem_entries_iff : (k, v) ∈ m.entries ↔ m.get? k = some v :=
  ⟨lookupEntries_of_mem m.nodup, mem_of_lookupEntries⟩

theorem get?_filterValues_eq_some_iff {p : V → Bool} :
    (m.filterValues p).get? k = some v ↔ m.get? k = some v ∧ p v = true := by
  rw [← mem_entries_iff, ← mem_entries_iff]
  exact mem_filter

theorem mem_values_iff : v ∈ m.values ↔ ∃ k, m.get? k = some v := by
  unfold values
  rw [mem_map]
  constructor
  · rintro ⟨⟨k, v'⟩, hmem, rfl⟩
    exact ⟨k, mem_entries_iff.1 hmem⟩
  · rintro ⟨k, hk⟩
    exact ⟨(k, v), mem_entries_iff.2 hk, rfl⟩

/-- Values that carry their keys are distinct. -/
theorem nodup_map_values {f : V → K} (h : ∀ k v, m.get? k = some v → f v = k) :
    (m.values.map f).Nodup := by
  have hkeys : m.values.map f = m.entries.map Prod.fst := by
    rw [values, map_map]
    apply map_congr_left
    intro e he
    exact h e.1 e.2 (mem_entries_iff.1 he)
  rw [hkeys]
  exact m.nodup

/-- A property that one entry has alone. -/
theorem countP_values_eq_one {p : V → Bool} (h : m.get? k = some v) (hv : p v = true)
    (honly : ∀ a w, m.get? a = some w → p w = true → a = k) : m.values.countP p = 1 := by
  have hkey : ∀ e ∈ m.entries, p e.2 = true ↔ decide (e.1 = k) = true := by
    rintro ⟨a, w⟩ hmem
    have hget := mem_entries_iff.1 hmem
    rw [decide_eq_true_eq]
    refine ⟨honly a w hget, ?_⟩
    rintro rfl
    rw [h, Option.some.injEq] at hget
    rw [← hget]
    exact hv
  have hk : k ∈ m.entries.map Prod.fst := mem_map_of_mem (mem_entries_iff.2 h)
  rw [values, countP_map, ← count_eq_one_of_mem m.nodup hk, count, countP_map]
  exact countP_congr fun e he => by simpa using hkey e he

variable {α : Type w}

/-- The elements by their keys; of those with one key, the last. -/
def indexBy (key : α → K) (xs : List α) : OrdMap K α :=
  xs.foldl (fun m x => m.set (key x) x) empty

variable {key : α → K} {xs : List α} {x : α}

theorem get?_indexBy (key : α → K) (xs : List α) (k : K) :
    (indexBy key xs).get? k = xs.reverse.find? fun x => key x = k := by
  induction xs using List.reverseRecOn with
  | nil => rfl
  | append_singleton xs x ih =>
    have hlast : indexBy key (xs ++ [x]) = (indexBy key xs).set (key x) x := by
      rw [indexBy, foldl_append]
      rfl
    rw [hlast, get?_set, ih, reverse_append, reverse_singleton, singleton_append, find?_cons]
    by_cases hk : k = key x
    · simp [hk]
    · simp [hk, Ne.symm hk]

theorem of_get?_indexBy (h : (indexBy key xs).get? k = some x) : x ∈ xs ∧ key x = k := by
  rw [get?_indexBy] at h
  exact ⟨mem_reverse.1 (mem_of_find?_eq_some h), by simpa using find?_some h⟩

theorem get?_indexBy_of_alone (hx : x ∈ xs) (halone : ∀ y ∈ xs, key y = key x → y = x) :
    (indexBy key xs).get? (key x) = some x := by
  have hsome : (xs.reverse.find? fun y => key y = key x).isSome :=
    find?_isSome.2 ⟨x, mem_reverse.2 hx, by simp⟩
  obtain ⟨y, hy⟩ := Option.isSome_iff_exists.1 hsome
  rw [← get?_indexBy] at hy
  obtain ⟨hmem, hkey⟩ := of_get?_indexBy hy
  rw [hy, halone y hmem hkey]

section Sums

variable {M : Type w} [AddCommGroup M]

theorem sum_setEntries (f : V → M) (k : K) (v : V) (l : List (K × V)) :
    ((setEntries k v l).map fun p => f p.2).sum =
      (l.map fun p => f p.2).sum + f v - ((lookupEntries k l).map f).getD 0 := by
  induction l with
  | nil => simp [setEntries, lookupEntries]
  | cons p _ ih =>
    obtain ⟨k', v'⟩ := p
    by_cases hk : k' = k
    · subst hk
      simp only [setEntries, if_true, lookupEntries, map_cons, sum_cons,
        Option.map_some, Option.getD_some]
      abel
    · simp only [setEntries, if_neg hk, lookupEntries, map_cons, sum_cons, ih]
      abel

/-- One `set` changes a sum over the values by the new value minus the replaced one. -/
theorem sum_values_set (f : V → M) (m : OrdMap K V) (k : K) (v : V) :
    ((m.set k v).values.map f).sum = (m.values.map f).sum + f v - ((m.get? k).map f).getD 0 := by
  have h := sum_setEntries f k v m.entries
  simpa [values, set, get?, Function.comp_def] using h

end Sums

end OrdMap

end Refract.Lib
