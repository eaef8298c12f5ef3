import Refract.Lib.Ecma

/-!
# Authorization of a payout

`authorizeSettlement` of `settlement-authorization.ts`. An authorization is a capability: its value
carries the facts that make it one, so it cannot be built for a decision that does not pay.
-/

namespace Refract.Claim

open Lib

/-- The name the trigger table gives a coverage type; a type without a name is unknown. -/
def coverageTypeName : Nat → Option String
  | 0 => some "StablecoinDepeg"
  | 1 => some "MarketCrash"
  | 2 => some "LiquidationShield"
  | 3 => some "SmartContractRisk"
  | 4 => some "FlightDelay"
  | _ => none

/-- The fields of a policy that a claim scan reads; the amount is an integer in base units. -/
structure StoredPolicy where
  id : String
  holder : String
  coverageType : Nat
  coverageAmount : Int
  expiresAt : ℚ
  isActive : Bool
  flightNumber : Option String

/-- The fields of a consensus decision that settlement reads. -/
structure ConsensusDecision where
  id : String
  coverageType : String
  triggered : Bool
  actionable : Bool
  status : String
  blockers : List String
  evidenceSeq : Option Nat
  deriving DecidableEq, Repr

/-- True when settlement may pay out on this decision. -/
def authorizesPayout (decision : ConsensusDecision) : Bool :=
  decision.actionable && decision.triggered && decision.evidenceSeq.isSome

/-- Proof that a payout is backed by an actionable, triggered, recorded decision for the coverage
type of the policy. -/
structure SettlementAuthorization where
  policyId : String
  holder : String
  payout : Int
  coverageTypeName : String
  decision : ConsensusDecision
  sameCoverage : decision.coverageType = coverageTypeName
  authorizes : authorizesPayout decision = true

/-- Authorizes a payout, or says why not. -/
def authorizeSettlement (policy : StoredPolicy) (name : String) (decision : ConsensusDecision) :
    Except String SettlementAuthorization :=
  if hcoverage : decision.coverageType = name then
    if decision.actionable = false then
      .error ("decision " ++ decision.id ++ " not actionable (" ++ decision.status ++ "): " ++
        String.intercalate "; " decision.blockers)
    else if hpays : authorizesPayout decision then
      .ok ⟨policy.id, policy.holder, policy.coverageAmount, name, decision, hcoverage, hpays⟩
    else .error ("decision " ++ decision.id ++ " not triggered")
  else
    .error ("decision " ++ decision.id ++ " is for " ++ decision.coverageType ++ ", not " ++ name)

/-- A decision is authorized exactly when it is for the coverage type and pays. -/
theorem authorizeSettlement_isOk (policy : StoredPolicy) (name : String)
    (decision : ConsensusDecision) :
    (authorizeSettlement policy name decision).isOk ↔
      decision.coverageType = name ∧ authorizesPayout decision := by
  unfold authorizeSettlement
  by_cases hname : decision.coverageType = name
  · by_cases hpays : authorizesPayout decision
    · have hactionable : decision.actionable = true := by
        simp only [authorizesPayout, Bool.and_eq_true] at hpays
        exact hpays.1.1
      simp [hname, hpays, hactionable, Except.isOk, Except.toBool]
    · by_cases hactionable : decision.actionable = false
      all_goals simp [hname, hpays, hactionable, Except.isOk, Except.toBool]
  · simp [hname, Except.isOk, Except.toBool]

end Refract.Claim
