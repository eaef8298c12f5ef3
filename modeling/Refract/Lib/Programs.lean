import Mathlib.Data.List.Basic

/-!
# Programs that ask their environment

A program is done, or it asks something and goes on with the answer. Several of them run side by
side, with their questions answered in any order. What one of them may ask is described by a
`Protocol` over a state that the proof keeps beside the program: which questions that state permits,
how an answer changes it, and in which states the program may end. A program that follows the
protocol still follows it after an answer (`Program.Follows.answer`). The last section is about the
list of programs that run: one of them is replaced, and any two of them are apart.
-/

namespace Refract.Lib

universe u v w

/-- A program with questions `Q` and answers `A`. -/
inductive Program (Q : Type u) (A : Q → Type v) where
  | done
  | ask (q : Q) (next : A q → Program Q A)

/-- The rules for a program, over states `G`. -/
structure Protocol (Q : Type u) (A : Q → Type v) (G : Type w) where
  may : G → Q → Prop
  answers : (q : Q) → A q → G → G → Prop
  ends : G → Prop

variable {Q : Type u} {A : Q → Type v} {G : Type w} {rules : Protocol Q A G}

/-- From a state, the program asks only what it may, whatever it is answered. -/
def Program.Follows (rules : Protocol Q A G) : Program Q A → G → Prop
  | .done, g => rules.ends g
  | .ask q next, g => rules.may g q ∧ ∀ a g', rules.answers q a g g' → (next a).Follows rules g'

theorem Program.Follows.answer {q : Q} {next : A q → Program Q A} {g g' : G} {a : A q}
    (h : (Program.ask q next).Follows rules g) (ha : rules.answers q a g g') :
    (next a).Follows rules g' :=
  h.2 a g' ha

/-! ## Programs side by side -/

variable {α : Type u} {pool : List α} {i : Nat} {a b : α}

/-- After a change of one place, what is in the pool is new or from another place. -/
theorem mem_set_cases (h : b ∈ pool.set i a) : b = a ∨ ∃ j, j ≠ i ∧ pool[j]? = some b := by
  obtain ⟨j, hj⟩ := List.mem_iff_getElem?.1 h
  rw [List.getElem?_set] at hj
  split at hj
  · split at hj
    · exact .inl (Option.some.inj hj).symm
    · cases hj
  · rename_i hne
    exact .inr ⟨j, Ne.symm hne, hj⟩

theorem apart_of_pairwise {R : α → α → Prop} (hsymm : ∀ x y, R x y → R y x) (h : pool.Pairwise R)
    {j : Nat} (hij : j ≠ i) (hi : pool[i]? = some a) (hj : pool[j]? = some b) : R a b := by
  obtain ⟨hlt, rfl⟩ := List.getElem?_eq_some_iff.1 hi
  obtain ⟨hlt', rfl⟩ := List.getElem?_eq_some_iff.1 hj
  rcases Nat.lt_or_gt_of_ne hij with hless | hgreater
  · exact hsymm _ _ (List.pairwise_iff_getElem.1 h j i hlt' hlt hless)
  · exact List.pairwise_iff_getElem.1 h i j hlt hlt' hgreater

end Refract.Lib
