import Refract.Lib.Ecma

/-!
# Event shapes of the consensus evidence ledger

The nineteen event kinds of `evidence.types.ts`. An event is a body stamped with its ledger
position and the time the system learned it (`Stamped`); the kind of the source is the constructor
of `EventBody`. The free-form `details` of an audit event is read by no function and is left out.
-/

namespace Refract.Consensus

open Lib

/-- Lifecycle of a source. -/
inductive SourceStatus where
  | active
  | warmup
  | quarantined
  | retired
  deriving DecidableEq, Repr

/-- Result of verifying the provider signature of a reading. -/
inductive SignatureStatus where
  | verified
  | pending
  | failed
  | notRequired
  deriving DecidableEq, Repr

/-- Result carried by a late signature event. -/
inductive SignatureResult where
  | verified
  | failed
  deriving DecidableEq, Repr

def SignatureResult.toStatus : SignatureResult → SignatureStatus
  | .verified => .verified
  | .failed => .failed

/-- Direction of a trigger rule. -/
inductive TriggerOp where
  | lt
  | gt
  deriving DecidableEq, Repr

def TriggerOp.text : TriggerOp → String
  | .lt => "lt"
  | .gt => "gt"

/-- Comparison a consensus value is tested against. -/
structure TriggerRule where
  op : TriggerOp
  threshold : ℚ
  deriving DecidableEq, Repr

/-- A version of the configuration of a source. -/
structure SourceVersionEvent where
  sourceId : String
  providerId : String
  feedId : String
  version : ℚ
  status : SourceStatus
  weight : ℚ
  warmupUntil : Option ℚ
  retentionDays : ℚ
  credentialRef : Option String
  declaredUpstream : Option String
  effectiveFrom : ℚ
  deriving DecidableEq, Repr

/-- A version of the quorum policy of a feed. -/
structure QuorumPolicyEvent where
  feedId : String
  version : ℚ
  minSources : ℚ
  expectedSources : ℚ
  minTotalWeight : ℚ
  maxReadingAgeMs : ℚ
  trigger : TriggerRule
  effectiveFrom : ℚ
  deriving DecidableEq, Repr

/-- A reading of one source. `payloadHash` is `none` when the raw payload was not captured. -/
structure ReadingEvent where
  readingId : String
  feedId : String
  sourceId : String
  value : ℚ
  observedAt : ℚ
  ledgerSeq : Option ℚ
  payloadHash : Option String
  signature : SignatureStatus
  fingerprint : Option String
  deriving DecidableEq, Repr

/-- Late verification result for a reading recorded as pending. -/
structure SignatureResultEvent where
  readingId : String
  result : SignatureResult
  deriving DecidableEq, Repr

structure PayloadStoredEvent where
  hash : String
  sourceId : String
  sizeBytes : ℚ
  deriving DecidableEq, Repr

/-- One contributor of a decision. `independent` is absent on decisions recorded before mirror
detection existed. -/
structure ContributingReading where
  readingId : String
  sourceId : String
  value : ℚ
  effectiveWeight : ℚ
  independent : Option Bool
  deriving DecidableEq, Repr

/-- Whether a consensus round produced a value. -/
inductive DecisionOutcome where
  | decision
  | noDecision
  deriving DecidableEq, Repr

structure DecisionEvent where
  decisionId : String
  feedId : String
  /-- Decision time, `at` in the source. -/
  atTime : ℚ
  ledgerSeq : Option ℚ
  outcome : DecisionOutcome
  value : Option ℚ
  triggered : Bool
  reason : String
  policyVersion : Option ℚ
  contributing : List ContributingReading
  deriving DecidableEq, Repr

/-- Why a triggering decision is not payable yet. -/
inductive EvidenceGapType where
  | missingRawPayload
  | insufficientSources
  | sourceInWarmup
  | signaturePending
  deriving DecidableEq, Repr

def EvidenceGapType.text : EvidenceGapType → String
  | .missingRawPayload => "missing_raw_payload"
  | .insufficientSources => "insufficient_sources"
  | .sourceInWarmup => "source_in_warmup"
  | .signaturePending => "signature_pending"

structure EvidenceGap where
  type : EvidenceGapType
  detail : String
  readingId : Option String
  sourceId : Option String
  deriving DecidableEq, Repr

inductive HoldEscalationReason where
  | deadlineExceeded
  | verdictContradicted
  | policyExpiredWhileHeld
  deriving DecidableEq, Repr

inductive HoldDisposition where
  | approvePayout
  | deny
  | extendHold
  deriving DecidableEq, Repr

def HoldDisposition.text : HoldDisposition → String
  | .approvePayout => "approve_payout"
  | .deny => "deny"
  | .extendHold => "extend_hold"

/-- A payout put on hold. `policyExpiresAt` is `NaN` when the caller passes a policy without an
expiry. -/
structure HoldPlacedEvent where
  holdId : String
  policyId : String
  holder : String
  feedId : String
  decisionId : String
  gaps : List EvidenceGap
  reason : String
  deadline : ℚ
  policyExpiresAt : JsNumber
  deriving DecidableEq, Repr

structure HoldReevaluatedEvent where
  holdId : String
  decisionId : String
  gaps : List EvidenceGap
  deriving DecidableEq, Repr

structure HoldReleasedEvent where
  holdId : String
  decisionId : String
  reason : String
  deriving DecidableEq, Repr

structure HoldEscalatedEvent where
  holdId : String
  escalation : HoldEscalationReason
  reason : String
  deriving DecidableEq, Repr

/-- An operator disposition; `deadline` is set for `extend_hold`. -/
structure HoldDisposedEvent where
  holdId : String
  disposition : HoldDisposition
  actor : String
  note : String
  deadline : Option ℚ
  deriving DecidableEq, Repr

structure HoldSettledEvent where
  holdId : String
  deriving DecidableEq, Repr

/-- One matched bucket behind an independence penalty. -/
structure PenaltyEvidence where
  bucket : ℚ
  readingA : String
  readingB : String
  valueA : ℚ
  valueB : ℚ
  deriving DecidableEq, Repr

structure IndependencePenaltyEvent where
  penaltyId : String
  feedId : String
  sourceA : String
  sourceB : String
  factor : ℚ
  windowStart : ℚ
  windowEnd : ℚ
  lagBuckets : ℚ
  informativeSamples : ℚ
  matchCount : ℚ
  exactMatches : ℚ
  matchRatio : ℚ
  evidence : List PenaltyEvidence
  deriving DecidableEq, Repr

structure IndependencePenaltyClearedEvent where
  penaltyId : String
  feedId : String
  sourceA : String
  sourceB : String
  reason : String
  matchRatio : ℚ
  informativeSamples : ℚ
  deriving DecidableEq, Repr

structure PayloadPurgedEvent where
  hash : String
  sourceId : String
  offboardingId : String
  reason : String
  deriving DecidableEq, Repr

/-- Why the body of a payload outlives the offboarding of its source. -/
inductive RetainReason where
  | withinLicenseRetention
  | openDispute
  | sharedWithActiveSource
  deriving DecidableEq, Repr

structure OffboardingStartedEvent where
  offboardingId : String
  sourceId : String
  actor : String
  reason : String
  purgeScope : List String
  retained : List (String × RetainReason)
  deriving DecidableEq, Repr

structure CredentialRevokedEvent where
  offboardingId : String
  sourceId : String
  credentialRef : String
  deriving DecidableEq, Repr

structure OffboardingCompletedEvent where
  offboardingId : String
  sourceId : String
  purged : Nat
  retained : Nat
  deriving DecidableEq, Repr

structure AuditEvent where
  action : String
  actor : String
  reason : String
  deriving DecidableEq, Repr

/-- The body of an event, one constructor per kind. -/
inductive EventBody where
  | sourceVersion (e : SourceVersionEvent)
  | quorumPolicy (e : QuorumPolicyEvent)
  | reading (e : ReadingEvent)
  | signatureResult (e : SignatureResultEvent)
  | payloadStored (e : PayloadStoredEvent)
  | decision (e : DecisionEvent)
  | holdPlaced (e : HoldPlacedEvent)
  | holdReevaluated (e : HoldReevaluatedEvent)
  | holdReleased (e : HoldReleasedEvent)
  | holdEscalated (e : HoldEscalatedEvent)
  | holdDisposed (e : HoldDisposedEvent)
  | holdSettled (e : HoldSettledEvent)
  | independencePenalty (e : IndependencePenaltyEvent)
  | independencePenaltyCleared (e : IndependencePenaltyClearedEvent)
  | payloadPurged (e : PayloadPurgedEvent)
  | offboardingStarted (e : OffboardingStartedEvent)
  | credentialRevoked (e : CredentialRevokedEvent)
  | offboardingCompleted (e : OffboardingCompletedEvent)
  | audit (e : AuditEvent)
  deriving DecidableEq, Repr

/-- The ledger sequence number an event is stamped with, for the two kinds that carry one. -/
def EventBody.ledgerSeq : EventBody → Option ℚ
  | .reading e => e.ledgerSeq
  | .decision e => e.ledgerSeq
  | _ => none

/-- Ledger position and recording time, assigned when an event is appended. -/
structure Stamped (α : Type) where
  seq : Nat
  recordedAt : ℚ
  data : α
  deriving DecidableEq, Repr

/-- A recorded event. -/
abbrev EvidenceEvent := Stamped EventBody

/-- An event before the ledger stamps it. -/
structure NewEvidenceEvent where
  body : EventBody
  recordedAt : Option ℚ := none

end Refract.Consensus
