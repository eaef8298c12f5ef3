import Refract.Claim.TriggerStability

/-!
# Claim decisions made under an untrusted feed

The adjudication record, the feed a policy reads, and `AdjudicationLedger`: consecutive identical
decisions for a policy collapse into the first, a record is taken by one re-evaluation run, and
policies that were paid are remembered.
-/

namespace Refract.Claim

open Lib

/-- Agreement of the regions on a feed. -/
inductive FeedTrustState where
  | trusted
  | underCorroborated
  | disputed
  | degraded
  deriving DecidableEq, Repr

/-- What the claim scan did with a policy. -/
inductive AdjudicationOutcome where
  | held
  | skipped
  | settled
  deriving DecidableEq, Repr

/-- One claim decision made while its feed was not trusted. Amounts are integers in base units. -/
structure AdjudicationRecord where
  id : String
  policyId : String
  holder : String
  coverageType : Nat
  feedId : String
  outcome : AdjudicationOutcome
  trustState : FeedTrustState
  decidedAt : ℚ
  readingValue : ℚ
  threshold : ℚ
  direction : TriggerDirection
  coverageAmount : Int
  paid : Int
  expiresAt : ℚ
  settlementTxHash : Option String
  reevaluatedBy : Option String

/-- Feed a policy's trigger reads. -/
def feedIdForPolicy (coverageType : Nat) (flightNumber : Option String) : String :=
  match coverageType with
  | 0 => "usdc-usd"
  | 1 => "market-24h-change"
  | 2 => "liquidation-ratio"
  | 3 => "tvl-drop"
  | 4 => "flight-delay:" ++ flightNumber.getD "UNKNOWN"
  | n => "coverage-" ++ toString n

/-- `AdjudicationLedger`. -/
structure AdjudicationLedger where
  records : OrdMap String AdjudicationRecord
  latestByPolicy : OrdMap String String
  paidPolicies : List String

namespace AdjudicationLedger

def empty : AdjudicationLedger := ⟨OrdMap.empty, OrdMap.empty, []⟩

variable (ledger : AdjudicationLedger)

def markPaid (policyId : String) : AdjudicationLedger :=
  { ledger with
    paidPolicies := if policyId ∈ ledger.paidPolicies then ledger.paidPolicies
      else ledger.paidPolicies ++ [policyId] }

def isPaid (policyId : String) : Bool :=
  decide (policyId ∈ ledger.paidPolicies)

/-- The record repeats the policy's last decision, which no run has taken yet. -/
def repeatsLatest (rec : AdjudicationRecord) : Bool :=
  match (ledger.latestByPolicy.get? rec.policyId).bind ledger.records.get? with
  | none => false
  | some prev =>
    prev.reevaluatedBy.isNone && decide (prev.outcome = rec.outcome) &&
      decide (prev.feedId = rec.feedId) && decide (prev.trustState = rec.trustState) &&
      decide (rec.outcome ≠ .settled)

/-- Stores a record unless it repeats the last one or its id is taken. -/
def record (rec : AdjudicationRecord) : AdjudicationLedger × Bool :=
  let ledger := if rec.outcome = .settled then ledger.markPaid rec.policyId else ledger
  if ledger.repeatsLatest rec then (ledger, false)
  else if ledger.records.contains rec.id then (ledger, false)
  else
    ({ ledger with
        records := ledger.records.set rec.id rec
        latestByPolicy := ledger.latestByPolicy.set rec.policyId rec.id }, true)

/-- Records for a feed not yet taken by a re-evaluation run. -/
def pending (feedId : String) : List AdjudicationRecord :=
  ledger.records.values.filter fun r => r.feedId = feedId ∧ r.reevaluatedBy = none

/-- Marks one record as taken, once. -/
def markOne (runId : String) (records : OrdMap String AdjudicationRecord) (id : String) :
    OrdMap String AdjudicationRecord :=
  match records.get? id with
  | some r =>
    if r.reevaluatedBy = none then records.set id { r with reevaluatedBy := some runId }
    else records
  | none => records

def markReevaluated (recordIds : List String) (runId : String) : AdjudicationLedger :=
  { ledger with records := recordIds.foldl (markOne runId) ledger.records }

end AdjudicationLedger

end Refract.Claim
