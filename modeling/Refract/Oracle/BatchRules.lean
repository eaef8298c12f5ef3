import Refract.Lib.Grouping
import Refract.Oracle.PublisherRuns

/-!
# Rules for a batch in flight

A proof about the publisher keeps a stage for each decision beside the programs in flight.
`BatchRules` says what may be asked in which stages and how answers change them; `BatchRules.Sound`
are the laws under which `process` follows the rules (`process_follows`), whatever it is answered.
The argument over splitting, retrying and reconciling is made here, once for all rules.
-/

namespace Refract.Oracle

open Lib List

universe u

/-! ## Rules -/

/-- Rules for a batch in flight, by the stages of its decisions. -/
structure BatchRules (σ : Type u) where
  /-- What may be written about a decision, and its stage afterwards. -/
  mayWrite : QueueStatement → σ → Prop
  write : QueueStatement → σ → σ
  /-- When a batch may be submitted, which answers are considered, and what they tell. -/
  maySubmit : (Nat → σ) → List PendingDecision → Prop
  submits : List PendingDecision → Except SubmitError BatchSubmitResult → Prop
  submitted : Except SubmitError BatchSubmitResult → σ → σ
  /-- The same for the lookup of a hash. -/
  mayLookUp : (Nat → σ) → List PendingDecision → Prop
  finds : (Nat → σ) → List PendingDecision → String → Except String TxLookup → Prop
  found : String → Except String TxLookup → σ → σ
  /-- A decision that is waiting for the lookups of hashes, is ready to be submitted, or was found
  on chain. -/
  waiting : List String → PendingDecision → σ → Prop
  clean : PendingDecision → σ → Prop
  confirmed : PendingDecision → σ → Prop
  /-- Later decisions need not wait; nothing more is written. -/
  settled : σ → Prop
  ended : σ → Prop

/-- Changes the stages of some decisions. -/
def putStages {σ : Type u} (g : Nat → σ) (ids : List Nat) (f : σ → σ) : Nat → σ := fun id =>
  if id ∈ ids then f (g id) else g id

/-- The lookup leaves its batch unresolved. -/
def defers : Except String TxLookup → Bool
  | .ok .pending | .error _ => true
  | .ok (.success _) | .ok .failed | .ok .notFound => false

section

variable {σ : Type u} {g : Nat → σ} {ids : List Nat} {f : σ → σ} {id : Nat}

theorem putStages_of_mem (h : id ∈ ids) : putStages g ids f id = f (g id) := if_pos h

theorem putStages_of_notMem (h : id ∉ ids) : putStages g ids f id = g id := if_neg h

theorem putStages_same (hf : ∀ x, f x = x) : putStages g ids f = g :=
  funext fun id => by rw [putStages, hf, ite_self]

end

namespace BatchRules

variable {σ : Type u}

/-- The rules as a protocol. -/
def protocol (rules : BatchRules σ) : Protocol PublisherAsk PublisherAnswer (Nat → σ) where
  may g
    | .statement statement => ∀ id ∈ statement.ids, rules.mayWrite statement (g id)
    | .submit batch => rules.maySubmit g batch
    | .lookup batch _ => rules.mayLookUp g batch
    | .random => True
  answers
    | .statement statement, _, g, g' => g' = putStages g statement.ids (rules.write statement)
    | .submit batch, answer, g, g' =>
      rules.submits batch answer ∧ g' = putStages g (idsOf batch) (rules.submitted answer)
    | .lookup batch txHash, answer, g, g' =>
      rules.finds g batch txHash answer ∧ g' = fun id => rules.found txHash answer (g id)
    | .random, _, g, g' => g' = g
  ends g := ∀ id, rules.ended (g id)

variable (rules : BatchRules σ) (g : Nat → σ) (batch : List PendingDecision)

/-- The batch is ready to be submitted. -/
abbrev AllClean : Prop := ∀ d ∈ batch, rules.clean d (g d.id)

/-- Decisions outside the batch that are not settled come after it. -/
abbrev OthersLater : Prop :=
  ∀ e ∉ idsOf batch, ¬rules.settled (g e) → ∀ d ∈ batch, d.id < e

/-- Decisions outside the batch are settled. -/
abbrev OthersSettled : Prop := ∀ e ∉ idsOf batch, rules.settled (g e)

/-- The laws under which the publisher follows the rules. -/
structure Sound (rules : BatchRules σ) (options : PublisherOptions) : Prop where
  settled_ended : ∀ {x}, rules.settled x → rules.ended x
  confirmed_settled : ∀ {d x}, rules.confirmed d x → rules.settled x
  clean_waiting : ∀ {hashes d x}, rules.clean d x → rules.waiting hashes d x
  waiting_nil : ∀ {d x}, rules.waiting [] d x → rules.clean d x
  -- Submissions.
  maySubmit : ∀ {g batch}, (idsOf batch).Pairwise (· < ·) → (∀ d ∈ batch, rules.clean d (g d.id)) →
    (∀ e ∉ idsOf batch, ¬rules.settled (g e) → ∀ d ∈ batch, d.id < e) → rules.maySubmit g batch
  submitted_ok : ∀ {result d x}, rules.clean d x → ∀ ids,
    rules.mayWrite (.markPublished ids result.txHash result.ledger)
      (rules.submitted (.ok result) x) ∧
    rules.settled (rules.write (.markPublished ids result.txHash result.ledger)
      (rules.submitted (.ok result) x))
  submitted_tooLarge : ∀ {batch e d x}, e.isSizeOrFeeError = true → rules.submits batch (.error e) →
    rules.clean d x → rules.clean d (rules.submitted (.error e) x)
  submitted_retry : ∀ {batch e d x}, e.isSizeOrFeeError = false → rules.submits batch (.error e) →
    d ∈ batch → rules.clean d x → ∀ ids delay reason,
    rules.mayWrite (.release ids delay reason e.txHash) (rules.submitted (.error e) x) ∧
    (options.maxAttempts ≤ d.attempts →
      rules.mayWrite (.markFailed ids reason) (rules.submitted (.error e) x))
  clean_failed : ∀ {d x}, rules.clean d x → ∀ ids reason, rules.mayWrite (.markFailed ids reason) x
  clean_release : ∀ {d x}, rules.clean d x → ∀ ids delay reason,
    rules.mayWrite (.release ids delay reason none) x
  write_failed : ∀ ids reason x, rules.settled (rules.write (.markFailed ids reason) x)
  write_release : ∀ ids delay reason txHash x,
    rules.ended (rules.write (.release ids delay reason txHash) x)
  -- Lookups.
  mayLookUp : ∀ {g batch hashes},
    (∀ d ∈ batch, rules.waiting hashes d (g d.id) ∨ rules.confirmed d (g d.id)) →
    rules.mayLookUp g batch
  found_settled : ∀ {txHash answer x}, rules.settled x → rules.settled (rules.found txHash answer x)
  found_confirmed : ∀ {txHash answer d x}, rules.confirmed d x →
    rules.confirmed d (rules.found txHash answer x)
  found_defers : ∀ {g batch hashes txHash answer d}, rules.finds g batch txHash answer →
    defers answer = true → d ∈ batch →
    (rules.waiting hashes d (g d.id) ∨ rules.confirmed d (g d.id)) → ∀ ids delay reason,
    rules.mayWrite (.release ids delay reason none) (rules.found txHash answer (g d.id)) ∧
    (answer ≠ .ok .pending → options.maxAttempts ≤ d.attempts →
      rules.mayWrite (.markFailed ids reason) (rules.found txHash answer (g d.id)))
  found_success : ∀ {g batch hashes txHash ledger d},
    rules.finds g batch txHash (.ok (.success ledger)) → d ∈ batch →
    rules.waiting hashes d (g d.id) → d.txHash = some txHash → ∀ ids,
    rules.mayWrite (.markPublished ids txHash ledger)
      (rules.found txHash (.ok (.success ledger)) (g d.id)) ∧
    rules.confirmed d (rules.write (.markPublished ids txHash ledger)
      (rules.found txHash (.ok (.success ledger)) (g d.id)))
  found_waiting : ∀ {hashes txHash answer d x}, defers answer = false →
    rules.waiting (txHash :: hashes) d x →
    (d.txHash = some txHash → answer = .ok .failed ∨ answer = .ok .notFound) →
    rules.waiting hashes d (rules.found txHash answer x)

end BatchRules

/-! ## Resolving a batch -/

/-- The decisions of the batch are in stages with a property, and nothing else changes. -/
structure Resolves {σ : Type u} (P : σ → Prop) (batch : List PendingDecision) (g g' : Nat → σ) :
    Prop where
  others : ∀ id ∉ idsOf batch, g' id = g id
  all : ∀ id ∈ idsOf batch, P (g' id)

variable {σ : Type u} {rules : BatchRules σ} {options : PublisherOptions} {g g' : Nat → σ}
  {batch : List PendingDecision} {next : PublisherProgram} {P : σ → Prop}

theorem Resolves.of_others {g'' : Nat → σ} (h : Resolves P batch g' g'')
    (hothers : ∀ id ∉ idsOf batch, g' id = g id) : Resolves P batch g g'' :=
  ⟨fun id hid => (h.others id hid).trans (hothers id hid), h.all⟩

theorem Resolves.nil : Resolves P [] g g :=
  ⟨fun _ _ => rfl, fun _ hid => absurd hid not_mem_nil⟩

theorem Resolves.mono {P' : σ → Prop} (h : Resolves P batch g g') (hsub : ∀ {x}, P x → P' x) :
    Resolves P' batch g g' :=
  ⟨h.others, fun id hid => hsub (h.all id hid)⟩

/-- One part of a batch is resolved after the other. -/
theorem Resolves.union {a b : List PendingDecision} {g'' : Nat → σ}
    (ha : Resolves P a g g') (hb : Resolves P b g' g'')
    (hmem : ∀ d, d ∈ batch ↔ d ∈ a ∨ d ∈ b) : Resolves P batch g g'' := by
  constructor
  · intro id hid
    rw [hb.others id, ha.others id]
    · exact fun hin => hid (forall_mem_idsOf.2
        (fun d hd => mem_idsOf_of_mem ((hmem d).2 (.inl hd))) id hin)
    · exact fun hin => hid (forall_mem_idsOf.2
        (fun d hd => mem_idsOf_of_mem ((hmem d).2 (.inr hd))) id hin)
  · refine forall_mem_idsOf.2 fun d hd => ?_
    by_cases hin : d.id ∈ idsOf b
    · exact hb.all _ hin
    rw [hb.others _ hin]
    rcases (hmem d).1 hd with hd | hd
    · exact ha.all _ (mem_idsOf_of_mem hd)
    · exact absurd (mem_idsOf_of_mem hd) hin

/-- A statement about a batch resolves it. -/
theorem follows_andThen {statement : QueueStatement} (hids : statement.ids = idsOf batch)
    (hmay : ∀ d ∈ batch, rules.mayWrite statement (g d.id))
    (hwrite : ∀ d ∈ batch, P (rules.write statement (g d.id)))
    (hnext : ∀ g', Resolves P batch g g' → next.Follows rules.protocol g') :
    (andThen statement next).Follows rules.protocol g := by
  refine ⟨?_, ?_⟩
  · show ∀ id ∈ statement.ids, rules.mayWrite statement (g id)
    rw [hids]
    exact forall_mem_idsOf.2 hmay
  · rintro _ g' rfl
    rw [hids]
    refine hnext _ ⟨fun id hid => putStages_of_notMem hid, forall_mem_idsOf.2 fun d hd => ?_⟩
    rw [putStages_of_mem (mem_idsOf_of_mem hd)]
    exact hwrite d hd

/-- A retried batch is ended. -/
theorem retryLater_follows (hrules : rules.Sound options) {reason : String} {countAttempt : Bool}
    {txHash : Option String} (hkey : UniqueKey (·.id) batch)
    (hrelease : ∀ d ∈ batch, ∀ ids delay,
      rules.mayWrite (.release ids delay reason txHash) (g d.id))
    (hfailed : countAttempt = true → ∀ d ∈ exhausted options batch, ∀ ids,
      rules.mayWrite (.markFailed ids reason) (g d.id))
    (hnext : ∀ g', Resolves rules.ended batch g g' → next.Follows rules.protocol g') :
    (retryLater options batch reason countAttempt txHash next).Follows rules.protocol g := by
  simp only [retryLater]
  generalize hdeadEq : (if countAttempt = true then exhausted options batch else []) = dead
  have hdead : ∀ d ∈ dead, d ∈ batch ∧ ∀ ids, rules.mayWrite (.markFailed ids reason) (g d.id) := by
    intro d hd
    rw [← hdeadEq] at hd
    split at hd
    · rename_i hcnt
      exact ⟨(mem_filter.1 hd).1, hfailed hcnt d hd⟩
    · cases hd
  generalize hretryEq : batch.filter (· ∉ dead) = retryable
  have hretry : ∀ d, d ∈ retryable ↔ d ∈ batch ∧ d ∉ dead := by
    intro d
    rw [← hretryEq, mem_filter, decide_eq_true_eq]
  have hparts : ∀ d, d ∈ batch ↔ d ∈ dead ∨ d ∈ retryable := by
    intro d
    rw [hretry]
    constructor
    · exact fun hd => or_iff_not_imp_left.2 fun hnot => ⟨hd, hnot⟩
    · exact fun h => h.elim (fun hd => (hdead d hd).1) And.left
  -- A decision is dead-lettered or released, not both.
  have hapart : ∀ d ∈ retryable, d.id ∉ idsOf dead := by
    intro d hd hin
    obtain ⟨hmem, hnot⟩ := (hretry d).1 hd
    obtain ⟨d', hd', heq⟩ := mem_idsOf.1 hin
    rw [hkey.eq (hdead d' hd').1 hmem heq] at hd'
    exact hnot hd'
  have hrest : ∀ g₁, Resolves rules.ended dead g g₁ →
      Program.Follows rules.protocol (if retryable = [] then next
        else .ask .random fun random => andThen (.release (idsOf retryable)
          (jitteredBackoff ((retryable.map (·.attempts)).max?.getD 0) options.baseBackoffMs
            options.maxBackoffMs random) reason txHash) next) g₁ := by
    intro g₁ hg₁
    split
    · rename_i hemp
      rw [hemp] at hparts
      exact hnext g₁ (hg₁.union .nil hparts)
    refine ⟨trivial, ?_⟩
    rintro random g₁ rfl
    refine follows_andThen rfl ?_ (fun d _ => hrules.write_release ..)
      fun g' hg' => hnext g' (hg₁.union hg' hparts)
    intro d hd
    rw [hg₁.others _ (hapart d hd)]
    exact hrelease d ((hretry d).1 hd).1 _ _
  split
  · rename_i hemp
    exact hrest g (by rw [hemp]; exact .nil)
  · exact follows_andThen rfl (fun d hd => (hdead d hd).2 _)
      (fun d _ => hrules.settled_ended (hrules.write_failed ..)) hrest

/-! ## Submitting -/

theorem uniqueKey_of_sorted (h : (idsOf batch).Pairwise (· < ·)) : UniqueKey (·.id) batch :=
  h.imp Nat.ne_of_lt

theorem sorted_of_sublist {part : List PendingDecision} (h : (idsOf batch).Pairwise (· < ·))
    (hsub : part.Sublist batch) : (idsOf part).Pairwise (· < ·) :=
  h.sublist (hsub.map _)

section Halves

variable {head tail : List PendingDecision} (hhalves : Halves batch head tail)
  (hsorted : (idsOf batch).Pairwise (· < ·))

include hhalves

theorem Halves.mem_iff (d : PendingDecision) : d ∈ batch ↔ d ∈ head ∨ d ∈ tail := by
  rw [← hhalves.append, mem_append]

theorem Halves.notMem_of {e : Nat} (hhead : e ∉ idsOf head) (htail : e ∉ idsOf tail) :
    e ∉ idsOf batch := by
  rw [← hhalves.append, idsOf, map_append, mem_append, not_or]
  exact ⟨hhead, htail⟩

/-- What has to wait for the second half, once the first one is settled, has to wait for the batch.
-/
theorem Halves.later_tail (hlater : rules.OthersLater g batch)
    (hhead : Resolves rules.settled head g g') : rules.OthersLater g' tail := by
  intro e he hnot d hd
  have hnotHead : e ∉ idsOf head := fun hin => hnot (hhead.all e hin)
  rw [hhead.others e hnotHead] at hnot
  exact hlater e (hhalves.notMem_of hnotHead he) hnot d ((hhalves.mem_iff d).2 (.inr hd))

include hsorted

/-- The first half comes before the second. -/
theorem Halves.lt : ∀ d ∈ head, ∀ e ∈ tail, d.id < e.id := by
  rw [← hhalves.append, idsOf, map_append, pairwise_append] at hsorted
  exact fun d hd e he => hsorted.2.2 d.id (mem_idsOf_of_mem hd) e.id (mem_idsOf_of_mem he)

theorem Halves.notMem : ∀ d ∈ tail, d.id ∉ idsOf head := by
  intro d hd hin
  obtain ⟨d', hd', heq⟩ := mem_idsOf.1 hin
  exact (hhalves.lt hsorted d' hd' d hd).ne heq

/-- The second half is as it was before the first one. -/
theorem Halves.clean_tail (hclean : rules.AllClean g batch)
    (hothers : ∀ id ∉ idsOf head, g' id = g id) : rules.AllClean g' tail := by
  intro d hd
  rw [hothers _ (hhalves.notMem hsorted d hd)]
  exact hclean d ((hhalves.mem_iff d).2 (.inr hd))

/-- What has to wait for the first half is in the second one or has to wait for the batch. -/
theorem Halves.later_head (hlater : rules.OthersLater g batch) : rules.OthersLater g head := by
  intro e he hnot d hd
  by_cases hin : e ∈ idsOf batch
  · obtain ⟨d', hd', rfl⟩ := mem_idsOf.1 hin
    rcases (hhalves.mem_iff d').1 hd' with hd' | hd'
    · exact absurd (mem_idsOf_of_mem hd') he
    · exact hhalves.lt hsorted d hd d' hd'
  · exact hlater e hin hnot d ((hhalves.mem_iff d).2 (.inl hd))

end Halves

section

variable (hrules : rules.Sound options)

include hrules

/-- The answers to a submission: it is confirmed, it is too large, or it is retried. -/
theorem submit_follows {next : Except SubmitError BatchSubmitResult → PublisherProgram}
    {published retried : PublisherProgram} {tooLarge : SubmitError → PublisherProgram}
    (hsorted : (idsOf batch).Pairwise (· < ·)) (hclean : rules.AllClean g batch)
    (hlater : rules.OthersLater g batch) (hok : ∀ result, next (.ok result) =
      andThen (.markPublished (idsOf batch) result.txHash result.ledger) published)
    (herror : ∀ e, next (.error e) = if e.isSizeOrFeeError then tooLarge e
      else retryLater options batch e.message true e.txHash retried)
    (hpub : ∀ g', Resolves rules.settled batch g g' → published.Follows rules.protocol g')
    (htooLarge : ∀ e g', (∀ id ∉ idsOf batch, g' id = g id) → rules.AllClean g' batch →
      (tooLarge e).Follows rules.protocol g')
    (hretried : ∀ g', Resolves rules.ended batch g g' → retried.Follows rules.protocol g') :
    Program.Follows rules.protocol (.ask (.submit batch) next) g := by
  refine ⟨hrules.maySubmit hsorted hclean hlater, ?_⟩
  rintro answer g₁ ⟨hsubmits, hg₁⟩
  have hothers : ∀ id ∉ idsOf batch, g₁ id = g id := by
    intro id hid
    rw [hg₁, putStages_of_notMem hid]
  have htold : ∀ d ∈ batch, g₁ d.id = rules.submitted answer (g d.id) := by
    intro d hd
    rw [hg₁, putStages_of_mem (mem_idsOf_of_mem hd)]
  cases answer with
  | ok =>
    rw [hok]
    refine follows_andThen rfl (fun d hd => ?_) (fun d hd => ?_)
      fun g' hg' => hpub g' (hg'.of_others hothers)
    · rw [htold d hd]
      exact (hrules.submitted_ok (hclean d hd) _).1
    · rw [htold d hd]
      exact (hrules.submitted_ok (hclean d hd) _).2
  | error e =>
    rw [herror]
    split
    · rename_i hlarge
      refine htooLarge e g₁ hothers fun d hd => ?_
      rw [htold d hd]
      exact hrules.submitted_tooLarge hlarge hsubmits (hclean d hd)
    rename_i hnotLarge
    have hnotLarge := eq_false_of_ne_true hnotLarge
    refine retryLater_follows hrules (uniqueKey_of_sorted hsorted) ?_ ?_
      fun g' hg' => hretried g' (hg'.of_others hothers)
    · intro d hd ids delay
      rw [htold d hd]
      exact (hrules.submitted_retry hnotLarge hsubmits hd (hclean d hd) _ _ _).1
    · intro _ d hd ids
      obtain ⟨hmem, hexh⟩ := mem_filter.1 hd
      rw [htold d hmem]
      exact (hrules.submitted_retry hnotLarge hsubmits hmem (hclean d hmem) _ 0 _).2
        (of_decide_eq_true hexh)

/-- A submitted half is settled, or it is ended and the rest of the batch is not submitted. -/
theorem publishOrRelease_follows {bound : Nat}
    {next : SplitOutcome → PublisherProgram} (hpos : 0 < batch.length)
    (hbound : batch.length ≤ bound) (hsorted : (idsOf batch).Pairwise (· < ·))
    (hclean : rules.AllClean g batch) (hlater : rules.OthersLater g batch)
    (hpub : ∀ g', Resolves rules.settled batch g g' → (next .published).Follows rules.protocol g')
    (hdeferred : ∀ g', Resolves rules.ended batch g g' →
      (next .deferred).Follows rules.protocol g') :
    (publishOrRelease options bound batch next).Follows rules.protocol g := by
  induction bound generalizing batch next g with
  | zero => omega
  | succ _ ih =>
    refine submit_follows hrules hsorted hclean hlater (fun _ => rfl) (fun _ => rfl) hpub ?_
      hdeferred
    intro e g₁ hothers hclean₁
    have hlater₁ : rules.OthersLater g₁ batch := by
      intro e he hnot
      rw [hothers e he] at hnot
      exact hlater e he hnot
    split
    · rename_i hlong
      have hhalves := halves_midpoint hlong
      have hheadLt := hhalves.head_lt
      have htailLt := hhalves.tail_lt
      refine ih hhalves.head_pos (by omega) (sorted_of_sublist hsorted (take_sublist _ _))
        (fun d hd => hclean₁ d (mem_of_mem_take hd)) (hhalves.later_head hsorted hlater₁) ?_ ?_
      · intro g₂ hg₂
        refine ih hhalves.tail_pos (by omega) (sorted_of_sublist hsorted (drop_sublist _ _))
          (hhalves.clean_tail hsorted hclean₁ hg₂.others) (hhalves.later_tail hlater₁ hg₂) ?_ ?_
        · intro g₃ hg₃
          exact hpub g₃ ((hg₂.union hg₃ hhalves.mem_iff).of_others hothers)
        · intro g₃ hg₃
          exact hdeferred g₃
            (((hg₂.mono hrules.settled_ended).union hg₃ hhalves.mem_iff).of_others hothers)
      · intro g₂ hg₂
        refine follows_andThen rfl ?_ (fun d _ => hrules.write_release ..) fun g₃ hg₃ =>
          hdeferred g₃ ((hg₂.union hg₃ hhalves.mem_iff).of_others hothers)
        exact fun d hd =>
          hrules.clean_release (hhalves.clean_tail hsorted hclean₁ hg₂.others d hd) _ _ _
    · -- A single decision is the whole batch.
      have hone : batch.take 1 = batch := take_of_length_le (by omega)
      rw [hone]
      exact follows_andThen rfl (fun d hd => hrules.clean_failed (hclean₁ d hd) _ _)
        (fun d _ => hrules.write_failed ..) fun g' hg' => hpub g' (hg'.of_others hothers)

/-! ## Reconciling -/

/-- Nothing more is written, once the batch is ended. -/
theorem Resolves.forall_ended (h : Resolves rules.ended batch g g')
    (hothers : rules.OthersSettled g batch) : ∀ id, rules.ended (g' id) := by
  intro id
  by_cases hin : id ∈ idsOf batch
  · exact h.all id hin
  · rw [h.others id hin]
    exact hrules.settled_ended (hothers id hin)

section Reconcile

variable {next : Option (List PendingDecision) → PublisherProgram} (hkey : UniqueKey (·.id) batch)
  (hnone : ∀ g', (∀ id, rules.ended (g' id)) → (next none).Follows rules.protocol g')
  (hsome : ∀ remaining g', remaining.Sublist batch → rules.AllClean g' remaining →
    rules.OthersSettled g' remaining → (next (some remaining)).Follows rules.protocol g')

include hkey hnone hsome

/-- Reconciling settles what is found on chain, or the whole batch is ended. -/
theorem reconcileHashes_follows {hashes : List String} {done : List Nat} (hhashes : hashes.Nodup)
    (hothers : rules.OthersSettled g batch)
    (hwait : ∀ d ∈ batch, d.id ∉ done → rules.waiting hashes d (g d.id))
    (hdone : ∀ d ∈ batch, d.id ∈ done → rules.confirmed d (g d.id) ∧
      ∀ hash ∈ hashes, d.txHash ≠ some hash) :
    (reconcileHashes options batch hashes done next).Follows rules.protocol g := by
  induction hashes generalizing done g with
  | nil =>
    refine hsome _ g filter_sublist ?_ ?_
    · intro d hd
      obtain ⟨hmem, hnot⟩ := mem_filter.1 hd
      exact hrules.waiting_nil (hwait d hmem (of_decide_eq_true hnot))
    · intro e he
      by_cases hin : e ∈ idsOf batch
      · obtain ⟨d, hd, rfl⟩ := mem_idsOf.1 hin
        by_cases hdoneMem : d.id ∈ done
        · exact hrules.confirmed_settled (hdone d hd hdoneMem).1
        · exact absurd (mem_idsOf_of_mem (mem_filter.2 ⟨hd, decide_eq_true hdoneMem⟩)) he
      · exact hothers e hin
  | cons hash hashes ih =>
    obtain ⟨hfresh, hrest⟩ := nodup_cons.1 hhashes
    have hstage : ∀ d ∈ batch, rules.waiting (hash :: hashes) d (g d.id) ∨
        rules.confirmed d (g d.id) := by
      intro d hd
      by_cases hin : d.id ∈ done
      · exact .inr (hdone d hd hin).1
      · exact .inl (hwait d hd hin)
    refine ⟨hrules.mayLookUp hstage, ?_⟩
    rintro answer g₁ ⟨hfinds, hg₁⟩
    have hothers₁ : rules.OthersSettled g₁ batch := by
      intro e he
      rw [hg₁]
      exact hrules.found_settled (hothers e he)
    have hdone₁ : ∀ d ∈ batch, d.id ∈ done → rules.confirmed d (g₁ d.id) ∧
        ∀ hash ∈ hashes, d.txHash ≠ some hash := by
      intro d hd hin
      rw [hg₁]
      obtain ⟨hconf, hne⟩ := hdone d hd hin
      exact ⟨hrules.found_confirmed hconf, fun h hh => hne h (mem_cons_of_mem _ hh)⟩
    -- A batch that is deferred is ended.
    have hdefer : defers answer = true → ∀ reason countAttempt,
        (countAttempt = true → answer ≠ .ok .pending) →
        (retryLater options batch reason countAttempt none (next none)).Follows rules.protocol
          g₁ := by
      intro hdefers reason countAttempt hcnt
      refine retryLater_follows hrules hkey ?_ ?_ fun g' hg' =>
        hnone g' (hg'.forall_ended hrules hothers₁)
      · intro d hd ids delay
        rw [hg₁]
        exact (hrules.found_defers hfinds hdefers hd (hstage d hd) _ _ _).1
      · intro hcounts d hd ids
        obtain ⟨hmem, hexh⟩ := mem_filter.1 hd
        rw [hg₁]
        exact (hrules.found_defers hfinds hdefers hmem (hstage d hmem) _ 0 _).2 (hcnt hcounts)
          (of_decide_eq_true hexh)
    have hskip : defers answer = false → (answer = .ok .failed ∨ answer = .ok .notFound) →
        (reconcileHashes options batch hashes done next).Follows rules.protocol g₁ := by
      intro hdefers hans
      refine ih hrest hothers₁ ?_ hdone₁
      intro d hd hin
      rw [hg₁]
      exact hrules.found_waiting hdefers (hwait d hd hin) fun _ => hans
    match answer with
    | .error message => exact hdefer rfl _ _ fun _ => nofun
    | .ok .pending => exact hdefer rfl _ _ nofun
    | .ok .failed => exact hskip rfl (.inl rfl)
    | .ok .notFound => exact hskip rfl (.inr rfl)
    | .ok (.success ledger) =>
      have hmatch : ∀ d ∈ batch.filter (·.txHash = some hash),
          d ∈ batch ∧ d.txHash = some hash ∧ d.id ∉ done := by
        intro d hd
        obtain ⟨hmem, htx⟩ := mem_filter.1 hd
        have htx := of_decide_eq_true htx
        exact ⟨hmem, htx, fun hin => (hdone d hmem hin).2 hash mem_cons_self htx⟩
      have hfound : ∀ d ∈ batch.filter (·.txHash = some hash), ∀ ids,
          rules.mayWrite (.markPublished ids hash ledger) (g₁ d.id) ∧
          rules.confirmed d (rules.write (.markPublished ids hash ledger) (g₁ d.id)) := by
        intro d hd ids
        obtain ⟨hmem, htx, hnot⟩ := hmatch d hd
        rw [hg₁]
        exact hrules.found_success hfinds hmem (hwait d hmem hnot) htx ids
      refine ⟨forall_mem_idsOf.2 fun d hd => (hfound d hd _).1, ?_⟩
      rintro _ g₂ hg₂
      have hmarked : ∀ d ∈ batch.filter (·.txHash = some hash), g₂ d.id =
          rules.write (.markPublished (idsOf (batch.filter (·.txHash = some hash))) hash ledger)
            (g₁ d.id) := by
        intro d hd
        rw [hg₂]
        exact putStages_of_mem (mem_idsOf_of_mem hd)
      have hkept : ∀ id ∉ idsOf (batch.filter (·.txHash = some hash)), g₂ id = g₁ id := by
        intro id hid
        rw [hg₂]
        exact putStages_of_notMem hid
      refine ih hrest ?_ ?_ ?_
      · intro e he
        rw [hkept e]
        · exact hothers₁ e he
        · exact fun hin => he (forall_mem_idsOf.2
            (fun d hd => mem_idsOf_of_mem (hmatch d hd).1) e hin)
      · intro d hd hin
        obtain ⟨hnotDone, hnotIds⟩ := not_or.1 (mt mem_append.2 hin)
        rw [hkept _ hnotIds, hg₁]
        refine hrules.found_waiting rfl (hwait d hd hnotDone) fun htx => ?_
        exact absurd (mem_idsOf_of_mem (mem_filter.2 ⟨hd, decide_eq_true htx⟩)) hnotIds
      · intro d hd hin
        by_cases hids : d.id ∈ idsOf (batch.filter (·.txHash = some hash))
        · obtain ⟨d', hd', heq⟩ := mem_idsOf.1 hids
          rw [hkey.eq (hmatch d' hd').1 hd heq] at hd'
          rw [hmarked d hd']
          refine ⟨(hfound d hd' _).2, ?_⟩
          intro hash' hhash' hsame
          rw [(hmatch d hd').2.1] at hsame
          exact hfresh (Option.some.inj hsame ▸ hhash')
        · rw [hkept _ hids]
          exact hdone₁ d hd ((mem_append.1 hin).resolve_right hids)

theorem reconcile_follows (hothers : rules.OthersSettled g batch)
    (hwait : ∀ d ∈ batch, rules.waiting (knownHashes batch) d (g d.id)) :
    (reconcile options batch next).Follows rules.protocol g := by
  simp only [reconcile]
  split
  · rename_i hemp
    rw [hemp] at hwait
    exact hsome batch g (List.Sublist.refl _) (fun d hd => hrules.waiting_nil (hwait d hd)) hothers
  · exact reconcileHashes_follows hrules hkey hnone hsome (nodup_eraseDups _) hothers
      (fun d hd _ => hwait d hd) fun d _ hid => absurd hid not_mem_nil

end Reconcile

/-! ## Processing -/

/-- The publisher follows sound rules. -/
theorem process_follows {bound : Nat} (hbound : batch.length ≤ bound)
    (hsorted : (idsOf batch).Pairwise (· < ·)) (hothers : rules.OthersSettled g batch)
    (hwait : ∀ d ∈ batch, rules.waiting (knownHashes batch) d (g d.id)) :
    (process options bound batch).Follows rules.protocol g := by
  induction bound generalizing batch g with
  | zero =>
    rw [length_eq_zero_iff.1 (Nat.le_zero.1 hbound)] at hothers
    exact fun id => hrules.settled_ended (hothers id not_mem_nil)
  | succ _ ih =>
    refine reconcile_follows hrules (uniqueKey_of_sorted hsorted) (fun g' hg' => hg') ?_ hothers
      hwait
    intro remaining g₁ hsub hclean hothers₁
    have hsorted₁ := sorted_of_sublist hsorted hsub
    have hlen := hsub.length_le
    simp only
    split
    · rename_i hemp
      rw [hemp] at hothers₁
      exact fun id => hrules.settled_ended (hothers₁ id not_mem_nil)
    rename_i hemp
    have hpos := length_pos_iff.2 hemp
    refine submit_follows hrules hsorted₁ hclean
      (fun e he hnot => absurd (hothers₁ e he) hnot) (fun _ => rfl) (fun _ => rfl)
      (fun g' hg' => (hg'.mono hrules.settled_ended).forall_ended hrules hothers₁) ?_
      (fun g' hg' => hg'.forall_ended hrules hothers₁)
    intro e g₂ hsame hclean₂
    have hothers₂ : rules.OthersSettled g₂ remaining := by
      intro e he
      rw [hsame e he]
      exact hothers₁ e he
    split
    · exact follows_andThen rfl (fun d hd => hrules.clean_failed (hclean₂ d hd) _ _)
        (fun d _ => hrules.settled_ended (hrules.write_failed ..))
        fun g' hg' => hg'.forall_ended hrules hothers₂
    have hhalves : Halves remaining (remaining.take (midpoint remaining))
        (remaining.drop (midpoint remaining)) := halves_midpoint (by omega)
    have htailLt := hhalves.tail_lt
    refine publishOrRelease_follows hrules hhalves.head_pos le_rfl
      (sorted_of_sublist hsorted₁ (take_sublist _ _))
      (fun d hd => hclean₂ d (mem_of_mem_take hd))
      (hhalves.later_head hsorted₁ fun e he hnot => absurd (hothers₂ e he) hnot) ?_ ?_
    · intro g₃ hg₃
      refine ih (by omega) (sorted_of_sublist hsorted₁ (drop_sublist _ _)) ?_ ?_
      · intro e he
        by_cases hin : e ∈ idsOf (remaining.take (midpoint remaining))
        · exact hg₃.all e hin
        · rw [hg₃.others e hin]
          exact hothers₂ e (hhalves.notMem_of hin he)
      · exact fun d hd => hrules.clean_waiting (hhalves.clean_tail hsorted₁ hclean₂ hg₃.others d hd)
    · intro g₃ hg₃
      refine follows_andThen rfl ?_ (fun d _ => hrules.write_release ..) fun g₄ hg₄ =>
        (hg₃.union hg₄ hhalves.mem_iff).forall_ended hrules hothers₂
      exact fun d hd =>
        hrules.clean_release (hhalves.clean_tail hsorted₁ hclean₂ hg₃.others d hd) _ _ _

end

end Refract.Oracle
