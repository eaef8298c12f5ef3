import Refract.Lib.Json
import Refract.Claim.Adjudication

/-!
# Planning a re-evaluation run

`planReevaluation` of `reevaluation-planner.ts`: for every affected record, replay the trusted
readings of its evidence window through a fresh trigger evaluator and compare the outcome with what
was done. The items, the summary and the run identifier are those of the source.
-/

namespace Refract.Claim

open Lib

inductive CorrectedOutcome where
  | triggered
  | notTriggered
  | insufficientData

inductive ReevaluationAction where
  | settle
  | release
  | flagOverpayment
  | noChange
  | superseded
  | manualReview
  deriving DecidableEq, Repr

/-- Where a trusted reading comes from. -/
inductive Provenance where
  | quorum
  | operatorBackfill
  deriving DecidableEq, Repr

def Provenance.text : Provenance → String
  | .quorum => "quorum"
  | .operatorBackfill => "operator_backfill"

structure TrustedReading where
  observedAt : ℚ
  value : ℚ
  provenance : Provenance

structure ReevaluationEvidence where
  windowStart : ℚ
  windowEnd : ℚ
  readingsUsed : Nat
  provenance : List Provenance
  decisionReading : ℚ
  threshold : ℚ
  triggerConfirmedAt : Option ℚ
  reason : String

structure ReevaluationItem where
  recordId : String
  policyId : String
  holder : String
  coverageType : Nat
  before : AdjudicationOutcome
  trustStateAtDecision : FeedTrustState
  after : CorrectedOutcome
  action : ReevaluationAction
  changed : Bool
  payoutDelta : Int
  evidence : ReevaluationEvidence

structure ReevaluationPlanInput where
  feedId : String
  degradedSince : ℚ
  restoredAt : ℚ
  records : List AdjudicationRecord
  trustedReadings : List TrustedReading
  triggerConfigFor : Nat → TriggerStabilityConfig ℚ
  alreadyPaidPolicies : List String
  lookbackMs : ℚ
  confirmWindowMs : ℚ

/-- Number of items with each action, and the totals. -/
structure PlanSummary where
  affected : Nat
  changed : Nat
  countOf : ReevaluationAction → Nat
  netPayoutDelta : Int

structure ReevaluationPlan where
  runId : String
  feedId : String
  degradedSince : ℚ
  restoredAt : ℚ
  items : List ReevaluationItem
  summary : PlanSummary

/-- The action for a record whose corrected outcome is known, and its payout change. -/
def decideAction (rec : AdjudicationRecord) (after : CorrectedOutcome) (paid : List String) :
    ReevaluationAction × Int :=
  match after, rec.outcome with
  | .insufficientData, _ => (.manualReview, 0)
  | .triggered, .settled => (.noChange, 0)
  | .notTriggered, .settled => (.flagOverpayment, 0 - rec.paid)
  | .triggered, _ =>
    if rec.policyId ∈ paid then (.superseded, 0) else (.settle, rec.coverageAmount)
  | .notTriggered, .held => (.release, 0)
  | .notTriggered, .skipped => (.noChange, 0)

section Planner

variable (host : Host) (sha : String → String) (pow2 : ℚ → ℚ)

/-- One reading replayed: the evaluator's states, and when the trigger was first confirmed. -/
def replayReading (config : TriggerStabilityConfig ℚ) (rec : AdjudicationRecord)
    (acc : OrdMap String (TriggerKeyState ℚ) × Option ℚ) (r : TrustedReading) :
    Except JsError (OrdMap String (TriggerKeyState ℚ) × Option ℚ) := do
  let e ← evaluate pow2 config acc.1 rec.id ⟨r.value, rec.threshold, rec.direction, r.observedAt⟩
  .ok (e.states, if e.decision.triggered ∧ acc.2 = none then e.decision.confirmedAt else acc.2)

/-- When the trigger was first confirmed on the readings of the window. -/
def replayWindow (config : TriggerStabilityConfig ℚ) (rec : AdjudicationRecord)
    (window : List TrustedReading) : Except JsError (Option ℚ) :=
  (window.foldlM (replayReading pow2 config rec) (OrdMap.empty, none)).map (·.2)

/-- The corrected outcome on the window, its reason, and the confirmation time. -/
def correctedOutcome (config : TriggerStabilityConfig ℚ) (rec : AdjudicationRecord)
    (window : List TrustedReading) : Except JsError (CorrectedOutcome × String × Option ℚ) :=
  if window = [] then .ok (.insufficientData, "no trusted readings in evidence window", none)
  else do
    match ← replayWindow pow2 config rec window with
    | some confirmedAt => do
        let iso ← toISOString confirmedAt
        .ok (.triggered, "trigger confirmed on trusted data at " ++ iso, some confirmedAt)
    | none =>
      .ok (.notTriggered, "trigger never confirmed across " ++ toString window.length ++
        " trusted reading(s)", none)

/-- The distinct sources of the readings, in alphabetical order. -/
def provenanceOf (window : List TrustedReading) : List Provenance :=
  sortBy (fun a b => compareUnits a.text b.text) (window.map (·.provenance)).dedup

/-- The item of one record, given the policies paid so far. -/
def planItem (input : ReevaluationPlanInput) (readings : List TrustedReading) (paid : List String)
    (rec : AdjudicationRecord) : Except JsError ReevaluationItem := do
  let windowStart := rec.decidedAt - input.lookbackMs
  let windowEnd := min (input.restoredAt + input.confirmWindowMs) rec.expiresAt
  let window := readings.filter fun r => windowStart ≤ r.observedAt ∧ r.observedAt ≤ windowEnd
  let (after, reason, triggerConfirmedAt) ←
    correctedOutcome pow2 (input.triggerConfigFor rec.coverageType) rec window
  let (action, payoutDelta) := decideAction rec after paid
  .ok { recordId := rec.id
        policyId := rec.policyId
        holder := rec.holder
        coverageType := rec.coverageType
        before := rec.outcome
        trustStateAtDecision := rec.trustState
        after
        action
        changed := action ≠ .noChange
        payoutDelta
        evidence :=
          { windowStart, windowEnd, readingsUsed := window.length,
            provenance := provenanceOf window, decisionReading := rec.readingValue,
            threshold := rec.threshold, triggerConfirmedAt, reason } }

/-- The items of the records in order; a settled item marks its policy paid for the rest. -/
def planItems (input : ReevaluationPlanInput) (readings : List TrustedReading) :
    List AdjudicationRecord → List String → Except JsError (List ReevaluationItem)
  | [], _ => .ok []
  | rec :: rest, paid => do
      let item ← planItem pow2 input readings paid rec
      let items ← planItems input readings rest
        (if item.action = .settle then paid ++ [rec.policyId] else paid)
      .ok (item :: items)

def summarisePlan (items : List ReevaluationItem) : PlanSummary where
  affected := items.length
  changed := (items.filter (·.changed)).length
  countOf action := (items.filter fun i => i.action = action).length
  netPayoutDelta := (items.map (·.payoutDelta)).sum

/-- Items of a JSON array. -/
def jsonList (texts : List String) : String := "[" ++ String.intercalate "," texts ++ "]"

/-- The text a run identifier is the hash of. -/
def runText (input : ReevaluationPlanInput) (records : List AdjudicationRecord)
    (readings : List TrustedReading) : String :=
  "\x7b\"feedId\":" ++ quoteJson input.feedId ++
    ",\"degradedSince\":" ++ host.numberToString input.degradedSince ++
    ",\"restoredAt\":" ++ host.numberToString input.restoredAt ++
    ",\"records\":" ++ jsonList (records.map fun r => quoteJson r.id) ++
    ",\"readings\":" ++ jsonList (readings.map fun r => jsonList
      [host.numberToString r.observedAt, host.numberToString r.value,
        quoteJson r.provenance.text]) ++ "\x7d"

/-- Deterministic re-adjudication of claims decided under an untrusted feed. -/
def planReevaluation (input : ReevaluationPlanInput) : Except JsError ReevaluationPlan := do
  let records := sortBy (fun a b => (compare a.decidedAt b.decidedAt).then
    (host.localeCompare a.id b.id)) input.records
  let readings := sortBy (fun a b => ((compare a.observedAt b.observedAt).then
    (compare a.value b.value)).then
      (host.localeCompare a.provenance.text b.provenance.text)) input.trustedReadings
  -- A settled record in this run means that policy is paid for the rest of it.
  let settledHere := (records.filter fun r => r.outcome = .settled).map (·.policyId)
  let items ← planItems pow2 input readings records (input.alreadyPaidPolicies ++ settledHere)
  .ok { runId := "reeval_" ++ takeChars 24 (sha (runText host input records readings))
        feedId := input.feedId
        degradedSince := input.degradedSince
        restoredAt := input.restoredAt
        items
        summary := summarisePlan items }

end Planner

end Refract.Claim
