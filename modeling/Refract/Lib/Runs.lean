import Mathlib.Logic.Relation

/-!
# Runs of labelled transition systems

A run is a sequence of labelled steps from a start state. `RunWhere Step P` are the runs whose
steps all meet `P`, a condition on the label and the state the step is taken in; what every such
step preserves holds at the end of every such run (`RunWhere.invariant`). For a step function and a
decidable condition, `perform` evaluates a list of labels, and what it returns is the end of a run.
-/

namespace Refract.Lib

open List

universe u v

variable {S : Type u} {L : Type v}

/-- A step whose label meets `P` in the state it is taken in. -/
def StepWhere (Step : S → L → S → Prop) (P : S → L → Prop) (s s' : S) : Prop :=
  ∃ l, P s l ∧ Step s l s'

/-- Runs whose steps all meet `P`. -/
abbrev RunWhere (Step : S → L → S → Prop) (P : S → L → Prop) : S → S → Prop :=
  Relation.ReflTransGen (StepWhere Step P)

variable {Step : S → L → S → Prop} {P : S → L → Prop}

/-- What holds at the start and is preserved by every step that meets `P` holds at the end. -/
theorem RunWhere.invariant (Inv : S → Prop) {s t : S} (hrun : RunWhere Step P s t) (hs : Inv s)
    (hstep : ∀ a l b, Inv a → P a l → Step a l b → Inv b) : Inv t := by
  induction hrun with
  | refl => exact hs
  | tail _ hlast ih =>
    obtain ⟨l, hP, hl⟩ := hlast
    exact hstep _ l _ ih hP hl

/-- What is in a trace that is extended by one event. -/
theorem mem_snoc {α : Type u} {xs : List α} {a b : α} : a ∈ xs ++ [b] ↔ a ∈ xs ∨ a = b := by
  rw [mem_append, mem_singleton]

theorem forall_mem_snoc {α : Type u} {p : α → Prop} {xs : List α} {b : α} :
    (∀ a ∈ xs ++ [b], p a) ↔ (∀ a ∈ xs, p a) ∧ p b := by
  rw [forall_mem_append, forall_mem_singleton]

theorem pairwise_snoc {α : Type u} {R : α → α → Prop} {xs : List α} {b : α} :
    (xs ++ [b]).Pairwise R ↔ xs.Pairwise R ∧ ∀ a ∈ xs, R a b := by
  simp [pairwise_append]

/-- A run extended by one step. -/
theorem RunWhere.snoc {s t t' : S} (hrun : RunWhere Step P s t) (l : L) (hP : P t l)
    (hl : Step t l t') : RunWhere Step P s t' :=
  hrun.tail ⟨l, hP, hl⟩

/-- For a total step function and a condition on labels alone, any list of labels gives a run. -/
theorem RunWhere.of_foldl {step : S → L → S} {Q : L → Prop} {labels : List L}
    (h : ∀ l ∈ labels, Q l) (s : S) :
    RunWhere (fun a l b => step a l = b) (fun _ l => Q l) s (labels.foldl step s) := by
  induction labels generalizing s with
  | nil => exact Relation.ReflTransGen.refl
  | cons l _ ih =>
    refine Relation.ReflTransGen.head ⟨l, h l mem_cons_self, rfl⟩ ?_
    exact ih (fun l' hl' => h l' (mem_cons_of_mem _ hl')) _

/-- Performs the labels one after another; each has to meet `P` and to fit the state. -/
def perform (step : S → L → Option S) (P : S → L → Prop) [∀ s l, Decidable (P s l)] :
    S → List L → Option S
  | s, [] => some s
  | s, l :: labels => if P s l then (step s l).bind fun t => perform step P t labels else none

variable {step : S → L → Option S} [∀ s l, Decidable (P s l)] {s t : S}

theorem RunWhere.of_perform {labels : List L} (h : perform step P s labels = some t) :
    RunWhere (fun a l b => step a l = some b) P s t := by
  induction labels generalizing s with
  | nil =>
    cases h
    exact Relation.ReflTransGen.refl
  | cons l _ ih =>
    simp only [perform] at h
    split at h
    · rename_i hP
      obtain ⟨next, hnext, hrest⟩ := Option.bind_eq_some_iff.1 h
      exact Relation.ReflTransGen.head ⟨l, hP, hnext⟩ (ih hrest)
    · cases h

/-- The run of labels that fit the states they meet. -/
theorem RunWhere.performed (labels : List L) (h : (perform step P s labels).isSome = true) :
    RunWhere (fun a l b => step a l = some b) P s ((perform step P s labels).get h) :=
  RunWhere.of_perform (Option.some_get h).symm

/-- The labels lead to a state with the decidable property `p`, from which `q` follows. -/
theorem RunWhere.exists_reached {q : S → Prop} (labels : List L) (p : S → Prop) [DecidablePred p]
    (h : (perform step P s labels).any (fun t => decide (p t)) = true)
    (hq : ∀ t, RunWhere (fun a l b => step a l = some b) P s t → p t → q t) :
    ∃ t, RunWhere (fun a l b => step a l = some b) P s t ∧ q t := by
  obtain ⟨t, hperform, ht⟩ := (Option.any_eq_true _ _).1 h
  have hrun : RunWhere (fun a l b => step a l = some b) P s t := RunWhere.of_perform hperform
  exact ⟨t, hrun, hq t hrun (of_decide_eq_true ht)⟩

end Refract.Lib
