import Refract.Oracle.BatchRules

/-!
# Stages of a batch in flight

What a batch in flight knows about each of its decisions: which transaction can still land with it,
and which hash its row records (`Stage`). The rules `staging` say when a batch may be submitted and
when a decision may be released, marked as published or dead-lettered, so that no decision is sent
while an earlier transaction with it can land, and none is given up while one can. The rules are
sound under assumptions on the answers: no ambiguous submission has the message of a size or fee
error, and no ambiguous submission and no failed lookup comes at the last attempt of a decision.
-/

namespace Refract.Oracle

open Lib

/-! ## Stages -/

/-- Where a decision stands. A decision that is held has a row in flight that records the hash
`recorded`, and no transaction other than `alive` can land with it. -/
inductive Stage where
  | outside
  | held (alive recorded : Option String)
  | landed (txHash : String)
  | published (txHash : String)
  | released
  | failed
  deriving DecidableEq

namespace Stage

/-- Later decisions need not wait. -/
def Settled : Stage → Prop
  | outside | published _ | failed => True
  | held _ _ | landed _ | released => False

/-- The batch has nothing more to write. -/
def Over : Stage → Prop
  | outside | published _ | failed | released => True
  | held _ _ | landed _ => False

/-- A release with this hash leaves a row that records what can land. -/
def Releasable (txHash : Option String) : Stage → Prop
  | held alive recorded => alive = txHash.or recorded ∨ alive = none ∧ txHash = none
  | published _ => txHash = none
  | outside | landed _ | released | failed => False

/-- The transaction is on chain. -/
def confirm (txHash : String) (stage : Stage) : Stage :=
  if stage = .held (some txHash) (some txHash) then .landed txHash else stage

/-- The transaction will not be on chain. -/
def refute (txHash : String) (stage : Stage) : Stage :=
  if stage = .held (some txHash) (some txHash) then .held none (some txHash) else stage

/-- The transaction can land. -/
def suspect (txHash : String) : Stage → Stage
  | held _ recorded => held (some txHash) recorded
  | stage => stage

end Stage

/-! ## Rules -/

/-- A batch may be submitted if nothing else can land with its decisions, and no earlier decision
has to wait. -/
structure MaySubmit (g : Nat → Stage) (batch : List PendingDecision) : Prop where
  clean : ∀ d ∈ batch, ∃ recorded, g d.id = .held none recorded
  sorted : (idsOf batch).Pairwise (· < ·)
  first : ∀ d ∈ batch, ∀ e < d.id, ¬(g e).Settled → e ∈ idsOf batch

/-- None of the decisions is at its last attempt. -/
def Retryable (options : PublisherOptions) (batch : List PendingDecision) : Prop :=
  ∀ d ∈ batch, d.attempts < options.maxAttempts

instance (options : PublisherOptions) (batch : List PendingDecision) :
    Decidable (Retryable options batch) :=
  inferInstanceAs (Decidable (∀ d ∈ batch, _))

/-- The rules for a batch in flight. -/
def staging (options : PublisherOptions) : BatchRules Stage where
  mayWrite statement x :=
    match statement with
    | .markPublished _ txHash _ => x = .landed txHash
    | .release _ _ _ txHash => x.Releasable txHash
    | .markFailed _ _ => ∃ recorded, x = .held none recorded
  write statement _ :=
    match statement with
    | .markPublished _ txHash _ => .published txHash
    | .release .. => .released
    | .markFailed .. => .failed
  maySubmit := MaySubmit
  submits batch answer :=
    match answer with
    | .error (.ambiguous message _) =>
      isSizeOrFeeMessage message = false ∧ Retryable options batch
    | .ok _ | .error (.batchTooLarge _) | .error (.other _) => True
  submitted answer x :=
    match answer with
    | .ok result => .landed result.txHash
    | .error (.ambiguous _ txHash) => x.suspect txHash
    | .error (.batchTooLarge _) | .error (.other _) => x
  mayLookUp _ _ := True
  finds g batch txHash answer :=
    match answer with
    | .ok (.success _) => ∀ id, g id ≠ .held none (some txHash)
    | .ok .pending | .ok .failed | .ok .notFound => True
    | .error _ => Retryable options batch
  found txHash answer x :=
    match answer with
    | .ok (.success _) => x.confirm txHash
    | .ok .failed | .ok .notFound => x.refute txHash
    | .ok .pending | .error _ => x
  waiting hashes d x :=
    x = .held none d.txHash ∨
      ∃ hash ∈ hashes, d.txHash = some hash ∧ x = .held (some hash) (some hash)
  clean d x := x = .held none d.txHash
  confirmed _ x := ∃ txHash, x = .published txHash
  settled := Stage.Settled
  ended := Stage.Over

variable {txHash : String} {answer : Except String TxLookup} {x : Stage}

theorem found_eq_self {options : PublisherOptions} (h : x ≠ .held (some txHash) (some txHash)) :
    (staging options).found txHash answer x = x := by
  match answer with
  | .ok (.success _) => exact if_neg h
  | .ok .failed => exact if_neg h
  | .ok .notFound => exact if_neg h
  | .ok .pending => rfl
  | .error _ => rfl

theorem staging_sound (options : PublisherOptions) : (staging options).Sound options where
  settled_ended {x} h := by
    cases x with
    | outside | published | failed => trivial
    | held | landed | released => exact h.elim
  confirmed_settled := by
    rintro d _ ⟨txHash, rfl⟩
    trivial
  clean_waiting h := .inl h
  waiting_nil h := h.resolve_right fun ⟨_, hmem, _⟩ => nomatch hmem
  maySubmit {g batch} hsort hclean hlater := by
    refine ⟨fun d hd => ⟨_, hclean d hd⟩, hsort, ?_⟩
    intro d hd e he hnot
    by_contra hmem
    exact absurd (hlater e hmem hnot d hd) he.not_gt
  submitted_ok _ _ := ⟨rfl, trivial⟩
  submitted_tooLarge {batch e d x} hlarge hsub hclean := by
    cases e with
    | batchTooLarge | other => exact hclean
    | ambiguous message =>
      have hmsg : isSizeOrFeeMessage message = true := hlarge
      rw [hsub.1] at hmsg
      cases hmsg
  submitted_retry {batch e d x} hretry hsub hd hclean _ _ _ := by
    cases e with
    | batchTooLarge => cases hretry
    | other => exact ⟨by rw [hclean]; exact .inr ⟨rfl, rfl⟩, fun _ => ⟨_, hclean⟩⟩
    | ambiguous =>
      refine ⟨by rw [hclean]; exact .inl rfl, ?_⟩
      exact fun hexh => absurd (hsub.2 d hd) hexh.not_gt
  clean_failed h _ _ := ⟨_, h⟩
  clean_release {d x} h _ _ _ := by
    rw [h]
    exact .inr ⟨rfl, rfl⟩
  write_failed _ _ _ := trivial
  write_release _ _ _ _ _ := trivial
  mayLookUp _ := trivial
  found_settled {txHash answer x} h := by
    rw [found_eq_self]
    · exact h
    · rintro rfl
      exact h
  found_confirmed := by
    rintro txHash answer d _ ⟨h, rfl⟩
    exact ⟨h, found_eq_self nofun⟩
  found_defers {g batch hashes txHash answer d} hfinds hdefers hd hstage _ _ _ := by
    have hsame : (staging options).found txHash answer (g d.id) = g d.id := by
      match answer with
      | .ok .pending => rfl
      | .error _ => rfl
    rw [hsame]
    constructor
    · rcases hstage with (h | ⟨hash, -, -, h⟩) | ⟨hash, h⟩
      · rw [h]
        exact .inr ⟨rfl, rfl⟩
      · rw [h]
        exact .inl rfl
      · rw [h]
        rfl
    · intro hne hexh
      match answer with
      | .ok .pending => exact absurd rfl hne
      | .error _ => exact absurd (hfinds d hd) hexh.not_gt
  found_success {g batch hashes txHash ledger d} hfinds hd hwait htx _ := by
    rcases hwait with h | ⟨hash, -, hhash, h⟩
    · rw [htx] at h
      exact absurd h (hfinds d.id)
    · rw [htx] at hhash
      cases hhash
      exact ⟨by rw [h]; exact if_pos rfl, ⟨txHash, rfl⟩⟩
  found_waiting {hashes txHash answer d x} hdefers hwait htx := by
    rcases hwait with h | ⟨hash, hmem, hhash, h⟩
    · left
      rw [h]
      exact found_eq_self nofun
    rw [h]
    by_cases heq : hash = txHash
    · subst heq
      rcases htx hhash with rfl | rfl <;> exact .inl (by rw [hhash]; exact if_pos rfl)
    refine .inr ⟨hash, (List.mem_cons.1 hmem).resolve_left heq, hhash, ?_⟩
    refine found_eq_self ?_
    rintro ⟨rfl⟩
    exact heq rfl

end Refract.Oracle
