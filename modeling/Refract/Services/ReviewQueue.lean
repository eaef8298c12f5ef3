import Refract.Lib.OrdMap
import Refract.Lib.Runs
import Refract.Lib.Tables

/-!
# The review queue

`reviewQueue.ts`: a reviewer approves, rejects or escalates an entry, and a sweep escalates the
entries past their deadline. `resolve` reads the entry, refuses one that is resolved, and then
updates it with no condition on its status, so two calls that overlap on an entry both write: a
rejection can be overwritten by an approval, and the decision settles (`rejection_overwritten`).
A verdict is final as long as no call reads an entry that another call is about to write
(`verdict_final`).

The claim id, the trigger and the evidence of an entry, which none of these functions reads, and the
audit table are left out. Times are in milliseconds. A read that fails ends its call before it has
done anything, so it is no step here.
-/

namespace Refract.Services

open Lib

/-! ## Entries -/

inductive ReviewStatus where
  | pending
  | approved
  | rejected
  | escalated
  deriving DecidableEq, Repr

def ReviewStatus.text : ReviewStatus → String
  | .pending => "pending"
  | .approved => "approved"
  | .rejected => "rejected"
  | .escalated => "escalated"

/-- A reviewer's verdict. -/
def ReviewStatus.isResolved : ReviewStatus → Bool
  | .approved | .rejected => true
  | .pending | .escalated => false

structure ReviewQueueEntry where
  id : String
  decisionId : String
  status : ReviewStatus
  createdAt : ℚ
  deadlineAt : ℚ
  resolvedAt : Option ℚ
  resolvedBy : Option String
  rejectionReason : Option String

/-- The entry that `enqueueForReview` inserts. -/
def enqueueForReview (slaSeconds : ℚ) (id decisionId : String) (now : ℚ) : ReviewQueueEntry where
  id
  decisionId
  status := .pending
  createdAt := now
  deadlineAt := now + slaSeconds * 1000
  resolvedAt := none
  resolvedBy := none
  rejectionReason := none

/-! ## Verdicts -/

structure ReviewerContext where
  actor : String
  authorized : Bool

inductive ReviewerAction where
  | approve
  | reject (reason : String)
  | escalate

/-- The arguments of `resolve`. -/
structure Resolution where
  id : String
  status : ReviewStatus
  actor : String
  reason : Option String

/-- `approve`, `reject` and `escalate`, up to their call of `resolve`. -/
def review (id : String) (ctx : ReviewerContext) (action : ReviewerAction) :
    Except JsError Resolution :=
  if ctx.authorized then
    match action with
    | .approve => .ok ⟨id, .approved, ctx.actor, none⟩
    | .reject reason =>
      if isBlank reason then .error (.error "rejection reason is required")
      else .ok ⟨id, .rejected, ctx.actor, some (trim reason)⟩
    | .escalate => .ok ⟨id, .escalated, ctx.actor, none⟩
  else .error (.error ("actor " ++ ctx.actor ++ " is not authorized to act on review queue items"))

/-- `resolve` before its update: the entry is read, and has to be unresolved. -/
def checkResolve (entries : List ReviewQueueEntry) (id : String) : Except JsError Unit :=
  match findByKey (·.id) id entries with
  | none => .error (.error ("review queue entry " ++ id ++ " not found"))
  | some entry =>
    if entry.status.isResolved then
      .error (.error ("review queue entry " ++ id ++ " already resolved as " ++ entry.status.text))
    else .ok ()

/-- The update of `resolve`. -/
def writeResolution (now : ℚ) (r : Resolution) (entries : List ReviewQueueEntry) :
    List ReviewQueueEntry :=
  updateWhere (fun e => e.id = r.id) (fun e => { e with
    status := r.status
    resolvedAt := some now
    resolvedBy := some r.actor
    rejectionReason := r.reason }) entries

/-- `latest` is a row that the query of `assertSettlementAllowed` may return. -/
def IsLatest (entries : List ReviewQueueEntry) (decisionId : String) (latest : ReviewQueueEntry) :
    Prop :=
  latest ∈ entries ∧ latest.decisionId = decisionId ∧
    ∀ e ∈ entries, e.decisionId = decisionId → e.createdAt ≤ latest.createdAt

/-- The settlement gate, with the latest entry of the decision if it was ever queued. -/
def assertSettlementAllowed (decisionId : String) : Option ReviewQueueEntry → Except JsError Unit
  | none => .ok ()
  | some row =>
    if row.status ≠ .approved then
      .error (.error ("decision " ++ decisionId ++ " cannot settle: review queue status is " ++
        row.status.text))
    else .ok ()

/-! ## Overlapping calls -/

/-- The table, the calls of `resolve` between their read and their update, and the ids that running
sweeps have selected and not come to yet. A sweep and its calls have one number. -/
structure ReviewState where
  entries : List ReviewQueueEntry
  writing : OrdMap Nat Resolution
  sweeps : OrdMap Nat (List String)

inductive ReviewLabel where
  | enqueue (id decisionId : String) (now : ℚ)
  | review (call : Nat) (id : String) (ctx : ReviewerContext) (action : ReviewerAction)
  | sweepExpired (call : Nat) (now : ℚ) (selected : List String)
  | sweepNext (call : Nat)
  | update (call : Nat) (now : ℚ)
  | updateFailed (call : Nat)

def ReviewState.initial : ReviewState := ⟨[], .empty, .empty⟩

/-- The number belongs to a running call. -/
def ReviewState.isBusy (s : ReviewState) (call : Nat) : Bool :=
  s.writing.contains call || s.sweeps.contains call

/-- The entries whose deadline has passed, as `sweepExpired` selects them. -/
def expiredIds (now : ℚ) (entries : List ReviewQueueEntry) : List String :=
  (entries.filter fun e => e.status = .pending ∧ e.deadlineAt ≤ now).map (·.id)

/-- A call reads its entry: it is about to write, or it has thrown. -/
def ReviewState.begin (s : ReviewState) (call : Nat) (request : Except JsError Resolution) :
    Option ReviewState :=
  match request with
  | .error _ => none
  | .ok r =>
    match checkResolve s.entries r.id with
    | .error _ => none
    | .ok () => some { s with writing := s.writing.set call r }

def reviewStep (slaSeconds : ℚ) (s : ReviewState) : ReviewLabel → Option ReviewState
  | .enqueue id decisionId now =>
    if id ∈ s.entries.map (·.id) then none
    else some { s with entries := s.entries ++ [enqueueForReview slaSeconds id decisionId now] }
  | .review call id ctx action =>
    if s.isBusy call then none else some ((s.begin call (review id ctx action)).getD s)
  | .sweepExpired call now selected =>
    -- The query has no order.
    if s.isBusy call ∨ ¬selected.Perm (expiredIds now s.entries) then none
    else some { s with sweeps := s.sweeps.set call selected }
  | .sweepNext call =>
    match s.sweeps.get? call, s.writing.get? call with
    | some (id :: rest), none =>
      match s.begin call (review id ⟨"system:sla", true⟩ .escalate) with
      | some s' => some { s' with sweeps := s.sweeps.set call rest }
      -- An escalation that throws ends the sweep.
      | none => some { s with sweeps := s.sweeps.delete call }
    | _, _ => none
  | .update call now =>
    (s.writing.get? call).map fun r => { s with
      entries := writeResolution now r s.entries
      writing := s.writing.delete call }
  | .updateFailed call =>
    -- The call throws, and ends the sweep it belongs to.
    if s.writing.contains call then
      some { s with writing := s.writing.delete call, sweeps := s.sweeps.delete call }
    else none

abbrev ReviewSteps (slaSeconds : ℚ) (s : ReviewState) (l : ReviewLabel) (s' : ReviewState) : Prop :=
  reviewStep slaSeconds s l = some s'

/-- Verdicts of the first state are in the second, and a rejected decision does not settle. -/
structure VerdictsKept (s t : ReviewState) : Prop where
  kept : ∀ e ∈ s.entries, e.status.isResolved = true → e ∈ t.entries
  refused : ∀ decisionId latest, IsLatest t.entries decisionId latest →
    (∃ e ∈ s.entries, e.id = latest.id ∧ e.status = .rejected) →
    assertSettlementAllowed decisionId (some latest) ≠ .ok ()

/-! ## What a step does -/

/-- The entry a step reads to resolve it. -/
def ReviewLabel.opens (s : ReviewState) : ReviewLabel → Option String
  | .review _ id _ _ => some id
  | .sweepNext call => (s.sweeps.get? call).bind List.head?
  | _ => none

/-- No call reads an entry that another call is about to write. -/
abbrev Exclusive (s : ReviewState) (l : ReviewLabel) : Prop :=
  ∀ id ∈ l.opens s, ∀ r ∈ s.writing.values, r.id ≠ id

/-- What a step does to the entries and the calls about to write. -/
inductive ReviewEffect (s s' : ReviewState) : Prop
  | quiet (entries : s'.entries = s.entries)
      (writing : ∀ call r, s'.writing.get? call = some r → s.writing.get? call = some r)
  | added (e : ReviewQueueEntry) (fresh : ∀ e' ∈ s.entries, e'.id ≠ e.id)
      (unresolved : e.status.isResolved = false) (entries : s'.entries = s.entries ++ [e])
      (writing : s'.writing = s.writing)
  | read (call : Nat) (r : Resolution) (checked : checkResolve s.entries r.id = .ok ())
      (alone : ∀ r' ∈ s.writing.values, r'.id ≠ r.id) (entries : s'.entries = s.entries)
      (writing : s'.writing = s.writing.set call r)
  | wrote (call : Nat) (r : Resolution) (now : ℚ) (found : s.writing.get? call = some r)
      (entries : s'.entries = writeResolution now r s.entries)
      (writing : s'.writing = s.writing.delete call)

variable {slaSeconds : ℚ} {s s' t : ReviewState} {l : ReviewLabel}

theorem review_id {id : String} {ctx : ReviewerContext} {action : ReviewerAction} {r : Resolution}
    (h : review id ctx action = .ok r) : r.id = id := by
  simp only [review] at h
  split at h
  · split at h
    · cases h
      rfl
    · split at h
      · cases h
      · cases h
        rfl
    · cases h
      rfl
  · cases h

/-- A call that does not throw has read an unresolved entry. -/
theorem begin_eq_some {call : Nat} {request : Except JsError Resolution}
    (h : s.begin call request = some s') :
    ∃ r, request = .ok r ∧ checkResolve s.entries r.id = .ok () ∧
      s' = { s with writing := s.writing.set call r } := by
  simp only [ReviewState.begin] at h
  split at h
  · cases h
  rename_i r
  split at h
  · cases h
  rename_i hcheck
  cases h
  exact ⟨r, rfl, hcheck, rfl⟩

theorem reviewStep_effect (hexcl : Exclusive s l) (h : reviewStep slaSeconds s l = some s') :
    ReviewEffect s s' := by
  cases l with
  | enqueue id decisionId now =>
    simp only [reviewStep] at h
    split at h
    · cases h
    rename_i hfresh
    cases h
    refine .added (enqueueForReview slaSeconds id decisionId now) ?_ rfl rfl rfl
    intro e he heq
    exact hfresh (List.mem_map.2 ⟨e, he, heq⟩)
  | review call id ctx action =>
    simp only [reviewStep] at h
    split at h
    · cases h
    cases h
    cases hbegin : s.begin call (review id ctx action) with
    | none => exact .quiet rfl fun _ _ hr => hr
    | some =>
      obtain ⟨r, hr, hcheck, rfl⟩ := begin_eq_some hbegin
      refine .read call r hcheck ?_ rfl rfl
      rw [review_id hr]
      exact hexcl id rfl
  | sweepExpired =>
    simp only [reviewStep] at h
    split at h
    · cases h
    · cases h
      exact .quiet rfl fun _ _ hr => hr
  | sweepNext call =>
    simp only [reviewStep] at h
    split at h
    · rename_i id rest hsweep _
      split at h
      · rename_i s₁ hbegin
        cases h
        obtain ⟨r, hr, hcheck, rfl⟩ := begin_eq_some hbegin
        refine .read call r hcheck ?_ rfl rfl
        rw [review_id hr]
        exact hexcl id (by simp [ReviewLabel.opens, hsweep])
      · cases h
        exact .quiet rfl fun _ _ hr => hr
    · cases h
  | update call now =>
    simp only [reviewStep, Option.map_eq_some_iff] at h
    obtain ⟨r, hr, rfl⟩ := h
    exact .wrote call r now hr rfl rfl
  | updateFailed call =>
    simp only [reviewStep] at h
    split at h
    · cases h
      exact .quiet rfl fun _ _ hr => (OrdMap.get?_delete_eq_some_iff.1 hr).2
    · cases h

/-! ## Verdicts are final -/

/-- What holds of the entries and the calls about to write. -/
structure ReviewInv (s : ReviewState) : Prop where
  ids : UniqueKey (·.id) s.entries
  unresolved : ∀ call r, s.writing.get? call = some r → ∀ e ∈ s.entries, e.id = r.id →
    e.status.isResolved = false
  apart : ∀ call call' r r', s.writing.get? call = some r → s.writing.get? call' = some r' →
    r.id = r'.id → call = call'

/-- The entry that was read is the entry with its id. -/
theorem unresolved_of_checkResolve {entries : List ReviewQueueEntry} {id : String}
    (hids : UniqueKey (·.id) entries) (h : checkResolve entries id = .ok ()) :
    ∀ e ∈ entries, e.id = id → e.status.isResolved = false := by
  intro e he hid
  simp only [checkResolve] at h
  split at h
  · cases h
  rename_i entry hfind
  obtain ⟨hent, hentryId⟩ := findByKey_some hfind
  rw [hids.eq he hent (hid.trans hentryId.symm)]
  split at h
  · cases h
  · rename_i hopen
    exact Bool.eq_false_iff.2 hopen

theorem ReviewInv.effect (h : ReviewInv s) (heff : ReviewEffect s s') :
    ReviewInv s' ∧ ∀ e ∈ s.entries, e.status.isResolved = true → e ∈ s'.entries := by
  cases heff with
  | quiet hents hwriting =>
    refine ⟨⟨?_, ?_, ?_⟩, ?_⟩
    · rw [hents]
      exact h.ids
    · rw [hents]
      exact fun call r hr => h.unresolved call r (hwriting call r hr)
    · exact fun c c' r r' hr hr' => h.apart c c' r r' (hwriting c r hr) (hwriting c' r' hr')
    · rw [hents]
      exact fun e he _ => he
  | added _ hfresh hopen hents hwriting =>
    refine ⟨⟨?_, ?_, ?_⟩, ?_⟩
    all_goals simp only [hents, hwriting]
    · exact h.ids.insert hfresh
    · intro call r hr e' he' hid
      rcases mem_snoc.1 he' with he' | rfl
      · exact h.unresolved call r hr e' he' hid
      · exact hopen
    · exact h.apart
    · exact fun e' he' _ => List.mem_append_left _ he'
  | read _ r hchk halone hents hwriting =>
    have hoth : ∀ call' r', s.writing.get? call' = some r' → r'.id ≠ r.id :=
      fun call' r' hr' => halone r' (OrdMap.mem_values_iff.2 ⟨call', hr'⟩)
    refine ⟨⟨?_, ?_, ?_⟩, ?_⟩
    all_goals simp only [hents, hwriting, OrdMap.get?_set_eq_some_iff]
    · exact h.ids
    · rintro call' r' (⟨-, rfl⟩ | ⟨-, hr'⟩)
      · exact unresolved_of_checkResolve h.ids hchk
      · exact h.unresolved call' r' hr'
    · rintro c c' r₁ r₂ (⟨hc, rfl⟩ | ⟨-, hr₁⟩) (⟨hc', rfl⟩ | ⟨-, hr₂⟩) hid
      · exact hc.trans hc'.symm
      · exact absurd hid.symm (hoth c' r₂ hr₂)
      · exact absurd hid (hoth c r₁ hr₁)
      · exact h.apart c c' r₁ r₂ hr₁ hr₂ hid
    · exact fun e he _ => he
  | wrote call r _ hfound hents hwriting =>
    refine ⟨⟨?_, ?_, ?_⟩, ?_⟩
    all_goals simp only [hents, hwriting, OrdMap.get?_delete_eq_some_iff, writeResolution]
    · exact h.ids.updateWhere fun _ _ _ => rfl
    · rintro call' r' ⟨hne, hr'⟩ e he hid
      obtain ⟨e', he', ⟨hwritten, rfl⟩ | ⟨-, rfl⟩⟩ := mem_updateWhere.1 he
      · -- The entry that was written has no other call about to write it.
        refine absurd (h.apart call' call r' r hr' hfound ?_) hne
        exact hid.symm.trans (of_decide_eq_true hwritten)
      · exact h.unresolved call' r' hr' e he' hid
    · rintro c c' r₁ r₂ ⟨-, hr₁⟩ ⟨-, hr₂⟩ hid
      exact h.apart c c' r₁ r₂ hr₁ hr₂ hid
    · intro e he hres
      refine mem_updateWhere.2 ⟨e, he, .inr ⟨?_, rfl⟩⟩
      refine decide_eq_false fun hid => ?_
      rw [h.unresolved call r hfound e he hid] at hres
      cases hres

theorem ReviewInv.run (hs : ReviewInv s) (hrun : RunWhere (ReviewSteps slaSeconds) Exclusive s t) :
    ReviewInv t ∧ ∀ e ∈ s.entries, e.status.isResolved = true → e ∈ t.entries := by
  apply RunWhere.invariant
    (fun t => ReviewInv t ∧ ∀ e ∈ s.entries, e.status.isResolved = true → e ∈ t.entries) hrun
  · exact ⟨hs, fun e he _ => he⟩
  · rintro a l b ⟨ha, hkept⟩ hexcl hstep
    obtain ⟨hb, hnext⟩ := ha.effect (reviewStep_effect hexcl hstep)
    exact ⟨hb, fun e he hres => hnext e (hkept e he hres) hres⟩

theorem ReviewInv.initial : ReviewInv .initial where
  ids := List.nodup_nil
  unresolved _ _ h := by cases h
  apart _ _ _ _ h := by cases h

/-- Where no call reads an entry that another is about to write, a verdict stays as it is, and a
decision whose latest entry was rejected does not settle. -/
theorem verdict_final (slaSeconds : ℚ) (s t : ReviewState)
    (hs : RunWhere (ReviewSteps slaSeconds) Exclusive .initial s)
    (ht : RunWhere (ReviewSteps slaSeconds) Exclusive s t) : VerdictsKept s t := by
  have hinv := (ReviewInv.initial.run hs).1
  obtain ⟨hinv', hkept⟩ := hinv.run ht
  refine ⟨hkept, ?_⟩
  rintro decisionId latest ⟨hlatest, -, -⟩ ⟨e, he, hid, hrejected⟩ hallowed
  have hmem : e ∈ t.entries := hkept e he (by rw [hrejected]; rfl)
  rw [← hinv'.ids.eq hmem hlatest hid, assertSettlementAllowed, if_pos (by simp [hrejected])]
    at hallowed
  cases hallowed

/-- A decision is queued, and one reviewer rejects it. -/
def rejectEntry : List ReviewLabel :=
  [.enqueue "e" "d" 0, .review 1 "e" ⟨"ann", true⟩ (.reject "bad feed"), .update 1 10]

/-- A call whose update fails leaves the entry to the next one. -/
theorem verdict_final_rejectEntry :
    ∃ s t, RunWhere (ReviewSteps 86400) Exclusive .initial s ∧
      RunWhere (ReviewSteps 86400) Exclusive s t ∧
      (∃ e ∈ s.entries, e.status = .rejected) ∧ VerdictsKept s t :=
  ⟨_, _, .performed rejectEntry (by decide +kernel),
    .performed [.review 2 "e" ⟨"bo", true⟩ .approve, .sweepExpired 3 86400000 [],
      .enqueue "f" "g" 20, .review 4 "f" ⟨"bo", true⟩ .approve, .updateFailed 4,
      .review 5 "f" ⟨"bo", true⟩ .approve, .update 5 30] (by decide +kernel), by decide +kernel,
    verdict_final 86400 _ _ (.performed _ _) (.performed _ _)⟩

/-- A second reviewer reads the entry before the rejection is written, and approves it after. -/
theorem rejection_overwritten :
    ¬∀ (slaSeconds : ℚ) (s t : ReviewState),
      RunWhere (ReviewSteps slaSeconds) (fun _ _ => True) .initial s →
      RunWhere (ReviewSteps slaSeconds) (fun _ _ => True) s t → VerdictsKept s t := by
  intro h
  have hkept := h 86400 _ _
    (.performed (rejectEntry.take 2 ++ [.review 2 "e" ⟨"bo", true⟩ .approve] ++
      rejectEntry.drop 2) (by decide +kernel))
    (.performed [.update 2 20] (by decide +kernel))
  exact hkept.refused "d" _
    ⟨List.head_mem (by decide +kernel), by decide +kernel, by decide +kernel⟩
    (by decide +kernel) (by decide +kernel)

end Refract.Services
