import Mathlib.Data.List.Basic
import Mathlib.Logic.Relation

/-!
# Properties of traces

A trace is the list of what happened, oldest first. Three shapes of temporal property are used:
everything after an event (`FollowedBy`, and `FollowedWhere` if its past matters as well),
everything between two events (`Between`) and everything before an event (`PrecededBy`). Each is
stated with decompositions of the trace, and each has one law for an extension of the trace, so
that an invariant over runs needs only the new events.
`Extends Q` relates a trace to its extensions by events that satisfy `Q` when they are appended.
-/

namespace Refract.Lib

open List

universe u

variable {α : Type u} {post pre trace : List α} {x : α}

/-- What ends a list and is not empty ends with the last element. -/
theorem getLast?_of_suffix_snoc {y : α} (h : post <:+ trace ++ [x]) (hpost : post.head? = some y) :
    post.getLast? = some x := by
  obtain ⟨before, hsplit⟩ := h
  have hne : post ≠ [] := by
    rintro rfl
    cases hpost
  rw [← getLast?_append_of_ne_nil before hne, hsplit, getLast?_concat]

/-- An event of an extended trace is an old one or a new one. -/
theorem append_eq_append_cons {added : List α} (h : trace ++ added = pre ++ x :: post) :
    (∃ old, trace = pre ++ x :: old ∧ post = old ++ added) ∨
      ∃ new, pre = trace ++ new ∧ added = new ++ x :: post := by
  rcases append_eq_append_iff.1 h with ⟨new, hpre, hadd⟩ | ⟨old, htr, hpost⟩
  · exact .inr ⟨new, hpre, hadd⟩
  cases old with
  | nil =>
    refine .inr ⟨[], ?_, ?_⟩
    · simpa using htr.symm
    · simpa using hpost.symm
  | cons _ old =>
    obtain ⟨rfl, rfl⟩ := List.cons.inj hpost
    exact .inl ⟨old, htr, rfl⟩

/-- The same where one event is new. -/
theorem snoc_eq_append_cons {y : α} (h : trace ++ [y] = pre ++ x :: post) :
    (∃ old, trace = pre ++ x :: old ∧ post = old ++ [y]) ∨ pre = trace ∧ x = y ∧ post = [] := by
  refine (append_eq_append_cons h).imp_right ?_
  rintro ⟨new, rfl, hnew⟩
  cases new with
  | nil =>
    obtain ⟨rfl, rfl⟩ := List.cons.inj hnew
    exact ⟨append_nil _, rfl, rfl⟩
  | cons => simp at hnew

/-! ## After an event -/

/-- Whatever follows an event of `a` in the trace satisfies `R`. -/
def FollowedBy (a : α → Prop) (R : List α → Prop) (trace : List α) : Prop :=
  ∀ pre x post, a x → trace = pre ++ x :: post → R post

theorem FollowedBy.nil (a : α → Prop) (R : List α → Prop) : FollowedBy a R [] := by
  intro pre x post _ h
  simp at h

variable {a : α → Prop} {R R' : List α → Prop}

/-- An extension without an event of `a` keeps what more events cannot undo. -/
theorem FollowedBy.append (h : FollowedBy a R trace) (added : List α) (hadd : ∀ x ∈ added, ¬a x)
    (hmono : ∀ post, R post → R' (post ++ added)) : FollowedBy a R' (trace ++ added) := by
  intro pre x post hx heq
  rcases append_eq_append_cons heq with ⟨old, htr, rfl⟩ | ⟨new, -, hnew⟩
  · exact hmono old (h pre x old hx htr)
  · exact absurd hx (hadd x (by simp [hnew]))

/-- One more event: it keeps what holds after earlier events of `a`, and if it is one itself then
nothing follows it yet. -/
theorem FollowedBy.snoc (h : FollowedBy a R trace) (y : α)
    (hmono : ∀ post, R post → R' (post ++ [y])) (hy : a y → R' []) :
    FollowedBy a R' (trace ++ [y]) := by
  intro pre x post hx heq
  rcases snoc_eq_append_cons heq with ⟨old, htr, rfl⟩ | ⟨-, rfl, rfl⟩
  · exact hmono old (h pre x old hx htr)
  · exact hy hx

/-- The trace from the first `a` on. -/
def since [DecidableEq α] (a : α) (trace : List α) : List α := trace.dropWhile (· ≠ a)

/-- An event that does not come after `a` is followed by `a`. -/
theorem mem_of_not_mem_since [DecidableEq α] {a : α} (ha : a ∈ trace)
    (heq : trace = pre ++ x :: post) (hx : x ∉ since a trace) : a ∈ post := by
  have hsplit : trace.takeWhile (· ≠ a) ++ since a trace = pre ++ x :: post := by
    rw [since, takeWhile_append_dropWhile, heq]
  rcases append_eq_append_cons hsplit with ⟨old, -, rfl⟩ | ⟨new, -, hsince⟩
  · refine mem_append_right _ ?_
    have hparts : a ∈ trace.takeWhile (· ≠ a) ++ since a trace := by
      rwa [since, takeWhile_append_dropWhile]
    refine (mem_append.1 hparts).resolve_left fun hbef => ?_
    have hne : decide (a ≠ a) = true := all_eq_true.1 all_takeWhile a hbef
    exact of_decide_eq_true hne rfl
  · exact absurd (by simp [hsince]) hx

/-! ## After an event with a past -/

/-- Whatever follows an event `x` with a past `pre` such that `a pre x` satisfies `R`. -/
def FollowedWhere (a : List α → α → Prop) (R : List α → Prop) (trace : List α) : Prop :=
  ∀ pre x post, trace = pre ++ x :: post → a pre x → R post

theorem FollowedWhere.nil (a : List α → α → Prop) (R : List α → Prop) : FollowedWhere a R [] := by
  intro pre x post h
  simp at h

/-- An extension without such an event keeps what follows from the old property. -/
theorem FollowedWhere.append {a : List α → α → Prop} (h : FollowedWhere a R trace) (added : List α)
    (hadd : ∀ past, ∀ y ∈ added, ¬a past y)
    (hmono : ∀ pre x post, trace = pre ++ x :: post → a pre x → R post → R' (post ++ added)) :
    FollowedWhere a R' (trace ++ added) := by
  intro pre x post heq ha
  rcases append_eq_append_cons heq with ⟨old, htr, rfl⟩ | ⟨new, -, hnew⟩
  · exact hmono pre x old htr ha (h pre x old htr ha)
  · exact absurd ha (hadd pre x (by simp [hnew]))

/-- One more event: it keeps what holds after earlier events, and if it is one itself then nothing
follows it yet. -/
theorem FollowedWhere.snoc {a : List α → α → Prop} (h : FollowedWhere a R trace) (y : α)
    (hmono : ∀ pre x post, trace = pre ++ x :: post → a pre x → R post → R' (post ++ [y]))
    (hy : a trace y → R' []) : FollowedWhere a R' (trace ++ [y]) := by
  intro pre x post heq ha
  rcases snoc_eq_append_cons heq with ⟨old, htr, rfl⟩ | ⟨rfl, rfl, rfl⟩
  · exact hmono pre x old htr ha (h pre x old htr ha)
  · exact hy ha

/-! ## Between two events -/

/-- Whatever stands between an event of `a` and a later one of `b` satisfies `R`. -/
def Between (a b : α → Prop) (R : List α → Prop) (trace : List α) : Prop :=
  ∀ pre x mid y post, a x → b y → trace = pre ++ x :: (mid ++ y :: post) → R mid

theorem Between.nil (a b : α → Prop) (R : List α → Prop) : Between a b R [] := by
  intro pre x mid y post _ _ h
  simp at h

variable {b : α → Prop}

theorem Between.append (h : Between a b R trace) (added : List α) (hadd : ∀ y ∈ added, ¬b y) :
    Between a b R (trace ++ added) := by
  intro pre x mid y post hx hy heq
  rw [← cons_append, ← append_assoc] at heq
  rcases append_eq_append_cons heq with ⟨old, htr, -⟩ | ⟨new, -, hnew⟩
  · exact h pre x mid y old hx hy (by rw [htr, append_assoc, cons_append])
  · exact absurd hy (hadd y (by simp [hnew]))

/-- One more event: if it is one of `b`, then what follows each event of `a` has to satisfy `R`. -/
theorem Between.snoc (h : Between a b R trace) (y : α) (hy : b y → FollowedBy a R trace) :
    Between a b R (trace ++ [y]) := by
  intro pre x mid z post hx hz heq
  rw [← cons_append, ← append_assoc] at heq
  rcases snoc_eq_append_cons heq with ⟨old, htr, -⟩ | ⟨hpre, rfl, -⟩
  · exact h pre x mid z old hx hz (by rw [htr, append_assoc, cons_append])
  -- The later event is the new one, so the trace ends right before it.
  · exact hy hz pre x mid hx hpre.symm

/-! ## Before an event -/

/-- Whatever precedes an event `y` in the trace satisfies `R y`. -/
def PrecededBy (R : α → List α → Prop) (trace : List α) : Prop :=
  ∀ pre y post, trace = pre ++ y :: post → R y pre

theorem PrecededBy.nil (R : α → List α → Prop) : PrecededBy R [] := by
  intro pre y post h
  simp at h

theorem PrecededBy.append {R : α → List α → Prop} (h : PrecededBy R trace) (added : List α)
    (hadd : ∀ new y post, added = new ++ y :: post → R y (trace ++ new)) :
    PrecededBy R (trace ++ added) := by
  intro pre y post heq
  rcases append_eq_append_cons heq with ⟨old, htr, -⟩ | ⟨new, rfl, hnew⟩
  · exact h pre y old htr
  · exact hadd new y post hnew

theorem PrecededBy.snoc {R : α → List α → Prop} (h : PrecededBy R trace) (y : α) (hy : R y trace) :
    PrecededBy R (trace ++ [y]) := by
  intro pre z post heq
  rcases snoc_eq_append_cons heq with ⟨old, htr, -⟩ | ⟨rfl, rfl, -⟩
  · exact h pre z old htr
  · exact hy

/-! ## Extending a trace -/

/-- The trace grows by one event that satisfies `Q` with respect to the trace so far. -/
def ExtendsBy (Q : List α → α → Prop) (trace trace' : List α) : Prop :=
  ∃ x, trace' = trace ++ [x] ∧ Q trace x

/-- The trace grows by events that satisfy `Q`. -/
abbrev Extends (Q : List α → α → Prop) : List α → List α → Prop :=
  Relation.ReflTransGen (ExtendsBy Q)

variable {Q Q' : List α → α → Prop} {trace' : List α}

/-- What every new event keeps is kept by all of them. -/
theorem Extends.invariant (Inv : List α → Prop) (h : Extends Q trace trace') (hstart : Inv trace)
    (hstep : ∀ t x, Inv t → Q t x → Inv (t ++ [x])) : Inv trace' := by
  induction h with
  | refl => exact hstart
  | tail _ hlast ih =>
    obtain ⟨x, rfl, hx⟩ := hlast
    exact hstep _ x ih hx

theorem Extends.mono (h : Extends Q trace trace') (hsub : ∀ t x, Q t x → Q' t x) :
    Extends Q' trace trace' := by
  refine Relation.ReflTransGen.mono ?_ _ _ h
  rintro a b ⟨x, hb, hx⟩
  exact ⟨x, hb, hsub a x hx⟩

/-- Every new event satisfies `Q` with respect to the trace before it. -/
theorem Extends.event (h : Extends Q trace trace') {mid : List α}
    (heq : trace' = trace ++ mid ++ x :: post) : Q (trace ++ mid) x := by
  induction h generalizing mid post x with
  | refl =>
    have hlen := congrArg List.length heq
    simp at hlen
  | tail _ hlast ih =>
    obtain ⟨y, rfl, hy⟩ := hlast
    rcases snoc_eq_append_cons heq with ⟨old, hbef, -⟩ | ⟨hpre, rfl, -⟩
    · exact ih hbef
    -- The event is the last one, so what is before it is the trace it was appended to.
    · rw [hpre]
      exact hy

theorem Extends.exists_append (h : Extends Q trace trace') : ∃ added, trace' = trace ++ added := by
  refine h.invariant (fun t => ∃ added, t = trace ++ added) ⟨[], by simp⟩ ?_
  rintro t x ⟨added, rfl⟩ _
  exact ⟨added ++ [x], by simp⟩

end Refract.Lib
