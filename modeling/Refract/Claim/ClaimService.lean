import Refract.Claim.ReevaluationService
import Refract.Claim.SettlementAuthorization
import Refract.Oracle.CircuitBreaker

/-!
# The claim service as a transition system

`ClaimService` scans active policies and settles payouts; re-evaluation runs settle through the
same payout path. Both are asynchronous, so the system is a state with one scan and any number of
runs being applied, and a step is what happens between two awaits of one of them
(`ClaimLabel`). A label carries what the awaited call answers: the reading, the consensus decision,
the trust of the feed, the pause flag, whether a statement of the database succeeds, the answer of
the hold gate, the outcome of the settlement, and the clock.

`processPayout` is a frame (`PayoutFrame`) with its own program counter, held by the scan or by the
item of a run that called it (`Caller`). The state records what happened in `trace`, in order; the
properties of the service are properties of the trace.
-/

namespace Refract.Claim

open Lib
open Refract.Oracle

/-! ## Data -/

structure ClaimResult where
  policyId : String
  holder : String
  coverageType : Nat
  triggered : Bool
  payout : Int
  reason : String
  processedAt : ℚ
  triggerDetectedAt : Option ℚ
  settlementTxHash : Option String
  decisionId : Option String
  deriving DecidableEq, Repr

structure DeadLetterEntry where
  policyId : String
  holder : String
  failureCount : Nat
  lastError : String
  reason : String
  coverageType : Nat

structure ScanCounts where
  scanned : Nat
  triggered : Nat
  settled : Nat
  deferred : Nat
  failedTransient : Nat
  failedPermanent : Nat
  failedIndeterminate : Nat
  deadLettered : Nat

/-- Who is in `processPayout`: the scan, or the run of the given id. -/
inductive Caller where
  | scan
  | run (runId : String)
  deriving DecidableEq, Repr

/-- The policy fields `processPayout` reads. A re-evaluation passes no expiry. -/
structure PayoutPolicy where
  id : String
  holder : String
  coverageType : Nat
  expiresAt : Option ℚ

/-- Where a call of `processPayout` stands. -/
inductive PayoutPc where
  | queryingBreaker
  | breakerAnswered (allowed : Bool)
  | settling (holdId : Option String)
  | returned (result : Option ClaimResult)
  | threw (message : String)
  deriving DecidableEq

/-- The call may still reach, or is in, `settleClaim`. -/
def PayoutPc.isLive : PayoutPc → Bool
  | .queryingBreaker | .breakerAnswered _ | .settling _ => true
  | .returned _ | .threw _ => false

/-- A call of `processPayout`. -/
structure PayoutFrame where
  policy : PayoutPolicy
  result : ClaimResult
  authorization : Option SettlementAuthorization
  pc : PayoutPc

/-- What the scan knows of a policy whose trigger is confirmed. -/
structure TriggeredPolicy where
  policy : StoredPolicy
  reading : OracleReading
  fetchedAt : Int
  feedId : String
  trust : Option FeedTrustState
  result : ClaimResult
  authorization : SettlementAuthorization

/-- Where the scan stands; `rest` are the policies still to be scanned. -/
inductive ScanPc where
  | idle
  | loop (rest : List StoredPolicy)
  | fetching (policy : StoredPolicy) (rest : List StoredPolicy) (fetchedAt : Int)
  | tripping (reading : OracleReading) (reasons : List AnomalyReason) (rest : List StoredPolicy)
  | deciding (policy : StoredPolicy) (rest : List StoredPolicy) (fetchedAt : Int)
      (reading : OracleReading)
  | pausing (t : TriggeredPolicy) (rest : List StoredPolicy)
  | paying (t : TriggeredPolicy) (rest : List StoredPolicy) (frame : PayoutFrame)

/-- The payout a scan awaits. -/
def ScanPc.frame : ScanPc → Option PayoutFrame
  | .paying _ _ frame => some frame
  | _ => none

structure ScanTask where
  pc : ScanPc
  settled : List ClaimResult
  counts : ScanCounts

/-- A run being applied: the items still to be looked at, and the payout awaited. -/
structure ApplyTask where
  remaining : List ReevaluationItem
  processed : Nat
  maxItems : Int
  actor : String
  now : ℚ
  payout : Option (ReevaluationItem × PayoutFrame)

/-- The payout a run awaits. -/
def ApplyTask.frame (task : ApplyTask) : Option PayoutFrame := task.payout.map (·.2)

/-- What happens in a run, as far as the properties of the service speak of it. -/
inductive ClaimEvent where
  | stepStarted (caller : Caller) (policyId : String)
  | fetched (policyId : String) (fetchedAt : Int) (anomalous breached : Bool)
  | authorized (policyId : String) (coverageType : Nat) (decision : ConsensusDecision)
  | pauseAnswered (policyId : String) (coverageType : Nat) (paused : Bool)
  | payoutEntered (caller : Caller) (policyId : String)
  | settleCalled (caller : Caller) (policyId : String) (coverageType : Nat)
  | settleResolved (policyId : String) (settled : Bool)
  | breakerOpened (coverageType : String)
  | breakerHalfOpened (coverageType : String)
  | breakerClosed (coverageType : String)
  deriving DecidableEq

structure ClaimState where
  policies : OrdMap String StoredPolicy
  failureCounts : OrdMap String Nat
  deadLetterClaims : List DeadLetterEntry
  deadLetterPolicyIds : List String
  processedCount : Nat
  payoutTotal : Int
  history : List ClaimResult
  policyCoverageTypes : OrdMap String Nat
  triggers : OrdMap String (TriggerKeyState ℚ)
  anomalies : AnomalyHistory
  breakers : BreakerTable
  reevaluation : ReevaluationService
  scan : ScanTask
  applies : OrdMap String ApplyTask
  trace : List ClaimEvent

/-- Configuration and host of the service. -/
structure ClaimEnv where
  host : Host
  sha : String → String
  pow2 : ℚ → ℚ
  triggerOverrides : TriggerOverrides
  anomalyRules : AnomalyRules
  holdOnUntrustedFeed : Bool
  reevaluation : ReevaluationConfig

def ScanCounts.zero : ScanCounts := ⟨0, 0, 0, 0, 0, 0, 0, 0⟩

/-- The service with the given policies, before any scan. -/
def ClaimState.start (policies : OrdMap String StoredPolicy) : ClaimState where
  policies
  failureCounts := OrdMap.empty
  deadLetterClaims := []
  deadLetterPolicyIds := []
  processedCount := 0
  payoutTotal := 0
  history := []
  policyCoverageTypes := OrdMap.empty
  triggers := OrdMap.empty
  anomalies := OrdMap.empty
  breakers := OrdMap.empty
  reevaluation := ReevaluationService.start
  scan := ⟨.idle, [], ScanCounts.zero⟩
  applies := OrdMap.empty
  trace := []

/-- `PolicyService.deactivate`. -/
def deactivate (policies : OrdMap String StoredPolicy) (policyId : String) :
    OrdMap String StoredPolicy :=
  match policies.get? policyId with
  | some p => policies.set policyId { p with isActive := false }
  | none => policies

namespace ClaimState

/-! ## Small updates -/

variable (s : ClaimState)

def log (events : List ClaimEvent) : ClaimState :=
  { s with trace := s.trace ++ events }

def setPc (pc : ScanPc) : ClaimState := { s with scan := { s.scan with pc } }

/-- The scan loop caught an exception and goes on with the next policy. -/
def caught (rest : List StoredPolicy) : ClaimState :=
  { s with
    scan := { s.scan with
      pc := .loop rest
      counts := { s.scan.counts with
        failedIndeterminate := s.scan.counts.failedIndeterminate + 1 } } }

/-- The payout frame of a caller. -/
def frameOf : Caller → Option PayoutFrame
  | .scan => s.scan.pc.frame
  | .run runId => (s.applies.get? runId).bind ApplyTask.frame

/-- Writes the program counter of a caller's frame. -/
def setFramePc (caller : Caller) (pc : PayoutPc) : ClaimState :=
  match caller with
  | .scan =>
    match s.scan.pc with
    | .paying t rest frame => s.setPc (.paying t rest { frame with pc })
    | _ => s
  | .run runId =>
    match s.applies.get? runId with
    | some task =>
      { s with
        applies := s.applies.set runId
          { task with payout := task.payout.map fun p => (p.1, { p.2 with pc }) } }
    | none => s

end ClaimState

/-! ## The scan -/

namespace ClaimState

/-- `Math.floor(Date.now() / 1000)`. -/
def seconds (now : ℚ) : Int := ⌊now / 1000⌋

def stalenessLimitSeconds : Int := 1800

/-- Flight delays trigger above their threshold, every other type below. -/
def directionOf (coverageType : Nat) : TriggerDirection :=
  if coverageType = 4 then .above else .below

variable (env : ClaimEnv) (s : ClaimState) (policy : StoredPolicy)

/-- What `evaluatePolicy` gives the evaluator. -/
def observationOf (reading : OracleReading) (value : ℚ) (fetchedAt : Int) : TriggerObservation ℚ :=
  ⟨value, reading.threshold, directionOf policy.coverageType, fetchedAt * 1000⟩

/-- Is the reading past its threshold? A number that is not finite is not. -/
def readingBreached (reading : OracleReading) : Bool :=
  match reading.value.finite? with
  | some value => (observationOf policy reading value 0).breached
  | none => false

/-- Policies a scan starts with: active, not expired, not dead-lettered. -/
def scannable (now : ℚ) : List StoredPolicy :=
  (s.policies.values.filter fun p => p.isActive ∧ (seconds now : ℚ) < p.expiresAt).filter
    fun p => p.id ∉ s.deadLetterPolicyIds

/-- Start of `processTriggeredWithStats`. -/
def startScan (now : ℚ) : Option ClaimState :=
  match s.scan.pc with
  | .idle =>
    let active := s.scannable now
    some { s with
      scan := ⟨.loop active, [], { ScanCounts.zero with scanned := active.length }⟩ }
  | _ => none

/-- The next policy of the scan, or its end. -/
def scanNext (now : ℚ) : Option ClaimState :=
  match s.scan.pc with
  | .loop [] =>
    some { s with
      scan := { s.scan with
        pc := .idle
        counts := { s.scan.counts with deadLettered := s.deadLetterClaims.length } } }
  | .loop (policy :: rest) =>
    if (coverageTypeName policy.coverageType).isSome then
      some ((s.log [.stepStarted .scan policy.id]).setPc (.fetching policy rest (seconds now)))
    else some (s.caught rest)
  | _ => none

/-- A number, threshold and message the oracle answers; the coverage type is the policy's. -/
structure OracleAnswer where
  value : JsNumber
  threshold : ℚ
  message : String

/-- `fetchOracleData` has answered or thrown; the reading is checked for anomalies. -/
def fetched (env : ClaimEnv) (s : ClaimState) (answer : Option OracleAnswer) (now : ℚ) :
    Option ClaimState :=
  match s.scan.pc with
  | .fetching policy rest fetchedAt =>
    match answer with
    | none => some (s.caught rest)
    | some a =>
      let reading : OracleReading :=
        ⟨(coverageTypeName policy.coverageType).getD "", a.value, a.threshold, a.message⟩
      let (anomalies, verdict) := evaluateAnomaly env.anomalyRules s.anomalies reading now
      let s := ({ s with anomalies }).log
        [.fetched policy.id fetchedAt verdict.triggered (readingBreached policy reading)]
      if verdict.triggered then some (s.setPc (.tripping reading verdict.reasons rest))
      else some (s.setPc (.deciding policy rest fetchedAt reading))
  | _ => none

/-- The statement of `CircuitBreaker.open` has run or failed, and so has the write of its evidence.
-/
def breakerTripped (opened recorded : Bool) (dbNow : ℚ) : Option ClaimState :=
  match s.scan.pc with
  | .tripping reading reasons rest =>
    if opened then
      let (breakers, changed) :=
        s.breakers.openBreaker reading.coverageType reasons [reading] dbNow
      if changed then
        let s := ({ s with breakers }).log [.breakerOpened reading.coverageType]
        if recorded then some (s.setPc (.loop rest)) else some (s.caught rest)
      else some (s.setPc (.loop rest))
    else some (s.caught rest)
  | _ => none

def buildResult (triggered : Bool) (reason : String) (now : ℚ) : ClaimResult where
  policyId := policy.id
  holder := policy.holder
  coverageType := policy.coverageType
  triggered
  payout := if triggered then policy.coverageAmount else 0
  reason
  processedAt := now
  triggerDetectedAt := none
  settlementTxHash := none
  decisionId := none

/-- The configuration of a policy's trigger. -/
def triggerConfig (policyId : String) : TriggerStabilityConfig ℚ :=
  defaultTriggerConfig (s.policyCoverageTypes.get? policyId) env.triggerOverrides

/-- `evaluatePolicy`: a stale reading never reaches the evaluator. -/
def evaluatePolicy (reading : OracleReading) (fetchedAt : Int) (now : ℚ) :
    ClaimState × Except JsError ClaimResult :=
  let staleness := seconds now - fetchedAt
  if stalenessLimitSeconds < staleness then
    (s, .ok (buildResult policy false
      ("Oracle data stale (" ++ toString staleness ++ "s old)") now))
  else
    let s := { s with
      policyCoverageTypes := s.policyCoverageTypes.set policy.id policy.coverageType }
    match reading.value.finite? with
    | none => (s, .error (.error ("Non-finite trigger observation for " ++ policy.id)))
    | some value =>
      match evaluate env.pow2 (s.triggerConfig env policy.id) s.triggers policy.id
          (observationOf policy reading value fetchedAt) with
      | .error e => (s, .error e)
      | .ok e =>
        let result := buildResult policy e.decision.triggered
          (reading.message ++ " [trigger: " ++ e.decision.reason.text env.host ++ "]") now
        ({ s with triggers := e.states },
          .ok { result with
            triggerDetectedAt := if e.decision.triggered then e.decision.confirmedAt else none })

/-- The feed has a trust state other than trusted. -/
def isUntrusted (trust : Option FeedTrustState) : Bool :=
  match trust with
  | none | some .trusted => false
  | _ => true

/-- `emitAdjudication`, with the re-evaluation ledger listening. -/
def emitAdjudication (reading : OracleReading) (feedId : String) (trust : Option FeedTrustState)
    (outcome : AdjudicationOutcome) (fetchedAt : Int) (paid : Int) (txHash : Option String) :
    ClaimState :=
  match trust with
  | none => s
  | some trustState =>
    let decidedAt : ℚ := fetchedAt * 1000
    let record : AdjudicationRecord :=
      { id := policy.id ++ ":" ++ env.host.numberToString decidedAt
        policyId := policy.id
        holder := policy.holder
        coverageType := policy.coverageType
        feedId, outcome, trustState, decidedAt
        readingValue := reading.value.finite?.getD 0
        threshold := reading.threshold
        direction := directionOf policy.coverageType
        coverageAmount := policy.coverageAmount
        paid
        expiresAt := policy.expiresAt * 1000
        settlementTxHash := txHash
        reevaluatedBy := none }
    { s with
      reevaluation := { s.reevaluation with ledger := (s.reevaluation.ledger.record record).1 } }

/-- `consensus.decide` has answered or thrown. The evaluator only sees an authorized policy. -/
def decided (answer : Option ConsensusDecision) (trust : Option FeedTrustState) (now : ℚ) :
    Option ClaimState :=
  match s.scan.pc with
  | .deciding policy rest fetchedAt reading =>
    match answer with
    | none => some (s.caught rest)
    | some decision =>
      match authorizeSettlement policy ((coverageTypeName policy.coverageType).getD "")
          decision with
      | .error _ => some (s.setPc (.loop rest))
      | .ok authorization =>
        let s := s.log [.authorized policy.id policy.coverageType decision]
        match s.evaluatePolicy env policy reading fetchedAt now with
        | (s, .error _) => some (s.caught rest)
        | (s, .ok result) =>
          let feedId := feedIdForPolicy policy.coverageType policy.flightNumber
          if result.triggered then
            let s := { s with
              scan := { s.scan with
                counts := { s.scan.counts with triggered := s.scan.counts.triggered + 1 } } }
            some (s.setPc (.pausing
              ⟨policy, reading, fetchedAt, feedId, trust, result, authorization⟩ rest))
          else if isUntrusted trust then
            some ((s.emitAdjudication env policy reading feedId trust .skipped fetchedAt 0
              none).setPc (.loop rest))
          else some (s.setPc (.loop rest))
  | _ => none

/-- The frame a payout starts with. -/
def newFrame (policy : PayoutPolicy) (result : ClaimResult)
    (authorization : Option SettlementAuthorization) : PayoutFrame :=
  ⟨policy, result, authorization, .queryingBreaker⟩

/-- The policy a scan pays. -/
def scannedPolicy : PayoutPolicy :=
  ⟨policy.id, policy.holder, policy.coverageType, some policy.expiresAt⟩

/-- `oracleControl.isPaused` has answered or thrown. -/
def pauseAnswered (env : ClaimEnv) (s : ClaimState) (answer : Option Bool) : Option ClaimState :=
  match s.scan.pc with
  | .pausing t rest =>
    match answer with
    | none => some (s.caught rest)
    | some paused =>
      let s := s.log [.pauseAnswered t.policy.id t.policy.coverageType paused]
      if paused then some (s.setPc (.loop rest))
      else if isUntrusted t.trust ∧ env.holdOnUntrustedFeed then
        some ((s.emitAdjudication env t.policy t.reading t.feedId t.trust .held t.fetchedAt 0
          none).setPc (.loop rest))
      else
        some ((s.log [.payoutEntered .scan t.policy.id]).setPc (.paying t rest
          (newFrame (scannedPolicy t.policy) t.result (some t.authorization))))
  | _ => none

/-! ## The payout path -/

/-- The answer of `ClaimHoldService.gate`; without the service a payout proceeds. -/
inductive GateAnswer where
  | proceed (holdId : Option String)
  | block (reason : String)
  | threw (message : String)

/-- How a call of `settleClaim` ends; after `unmarked` it has settled the claim, but marking the
hold settled throws. -/
inductive SettleAnswer where
  | settled (txHash : Option String)
  | failed (error : Option String)
  | threw (message : String)
  | unmarked (message : String)

/-- The breaker's row is read, under the policy's numeric coverage type; a failed read blocks. -/
def breakerRead (caller : Caller) (readable : Bool) : Option ClaimState :=
  match s.frameOf caller with
  | some ⟨policy, _, _, .queryingBreaker⟩ =>
    some (s.setFramePc caller (.breakerAnswered
      (readable && decide (s.breakers.getState (toString policy.coverageType) = .closed))))
  | _ => none

/-- `processPayout` goes on after the breaker: the gate, then the call of `settleClaim`. -/
def payoutResumed (caller : Caller) (gate : GateAnswer) : Option ClaimState :=
  match s.frameOf caller with
  | some ⟨policy, _, _, .breakerAnswered allowed⟩ =>
    if allowed = false then some (s.setFramePc caller (.returned none))
    else match gate with
      | .block _ => some (s.setFramePc caller (.returned none))
      | .threw message => some (s.setFramePc caller (.threw message))
      | .proceed holdId =>
        some ((s.log [.settleCalled caller policy.id policy.coverageType]).setFramePc caller
          (.settling holdId))
  | _ => none

/-- Bookkeeping of a settlement that did not confirm: the third failure is dead-lettered. -/
def recordFailure (policy : PayoutPolicy) (reason : String) (error : Option String) : ClaimState :=
  let count := (s.failureCounts.get? policy.id).getD 0 + 1
  if 3 ≤ count then
    { s with
      failureCounts := s.failureCounts.delete policy.id
      deadLetterClaims := s.deadLetterClaims ++
        [⟨policy.id, policy.holder, count, error.getD "settlement failed", reason,
          policy.coverageType⟩]
      deadLetterPolicyIds := if policy.id ∈ s.deadLetterPolicyIds then s.deadLetterPolicyIds
        else s.deadLetterPolicyIds ++ [policy.id] }
  else { s with failureCounts := s.failureCounts.set policy.id count }

/-- Bookkeeping of a confirmed settlement. -/
def recordSettlement (policy : PayoutPolicy) (result : ClaimResult) : ClaimState :=
  { s with
    policies := deactivate s.policies policy.id
    triggers := s.triggers.delete policy.id
    policyCoverageTypes := s.policyCoverageTypes.delete policy.id
    processedCount := s.processedCount + 1
    payoutTotal := s.payoutTotal + result.payout
    history := s.history ++ [result] }

/-- The result of a confirmed settlement. -/
def settledResult (frame : PayoutFrame) (txHash : Option String) : ClaimResult :=
  { frame.result with
    settlementTxHash := txHash
    decisionId := frame.authorization.map (·.decision.id) }

/-- `settleClaim` has resolved or thrown. Marking the hold settled is the hold service's; when that
throws, the policy stays active. -/
def settleAnswered (caller : Caller) (answer : SettleAnswer) : Option ClaimState :=
  match s.frameOf caller with
  | some ⟨policy, result, authorization, .settling holdId⟩ =>
    match answer with
    | .threw message => some (s.setFramePc caller (.threw message))
    | .failed error =>
      some (((s.log [.settleResolved policy.id false]).recordFailure policy result.reason
        error).setFramePc caller (.returned none))
    | .settled txHash =>
      let settled := settledResult ⟨policy, result, authorization, .settling holdId⟩ txHash
      some (((s.log [.settleResolved policy.id true]).recordSettlement policy
        settled).setFramePc caller (.returned (some settled)))
    | .unmarked message =>
      if holdId = none then none
      else some ((s.log [.settleResolved policy.id true]).setFramePc caller (.threw message))
  | _ => none

/-- The scan goes on after `processPayout`. -/
def scanPaid : Option ClaimState :=
  match s.scan.pc with
  | .paying t rest ⟨_, _, _, .returned (some result)⟩ =>
    let s := { s with
      scan := { s.scan with
        settled := s.scan.settled ++ [result]
        counts := { s.scan.counts with settled := s.scan.counts.settled + 1 } } }
    let s := if isUntrusted t.trust then
      s.emitAdjudication env t.policy t.reading t.feedId t.trust .settled t.fetchedAt
        result.payout result.settlementTxHash
      else s
    some (s.setPc (.loop rest))
  | .paying _ rest ⟨_, _, _, .returned none⟩ =>
    let s := { s with
      scan := { s.scan with
        counts := { s.scan.counts with
          deferred := s.scan.counts.deferred + 1
          failedTransient := s.scan.counts.failedTransient + 1 } } }
    some (s.setPc (.loop rest))
  | .paying _ rest ⟨_, _, _, .threw _⟩ => some (s.caught rest)
  | _ => none

/-! ## Re-evaluation runs -/

/-- Writes the state of an item of a run. -/
def setItem (runId recordId : String) (state : ItemState) : ClaimState :=
  match s.reevaluation.runs.get? runId with
  | some run =>
    { s with
      reevaluation := { s.reevaluation with
        runs := s.reevaluation.runs.set runId
          { run with itemStatus := run.itemStatus.set recordId state } } }
  | none => s

/-- A call of `apply` that is accepted. -/
def applyStarted (runId : String) (actor : String) (now : ℚ) (maxItems : Int) : Option ClaimState :=
  match s.reevaluation.runs.get? runId with
  | some run =>
    match ReevaluationService.canApply run maxItems with
    | .error _ => none
    | .ok _ =>
      some { s with
        reevaluation := { s.reevaluation with
          runs := s.reevaluation.runs.set runId { run with status := .applying } }
        applies := s.applies.set runId ⟨run.plan.items, 0, maxItems, actor, now, none⟩ }
  | none => none

/-- The claim result a re-evaluation pays. -/
def reevaluationResult (item : ReevaluationItem) (runId : String) (now : ℚ) : ClaimResult where
  policyId := item.policyId
  holder := item.holder
  coverageType := item.coverageType
  triggered := true
  payout := item.payoutDelta
  reason := "Re-adjudicated by " ++ runId ++ " after feed trust was restored"
  processedAt := now
  triggerDetectedAt := none
  settlementTxHash := none
  decisionId := none

/-- The policy a re-evaluation item pays. -/
def itemPolicy (item : ReevaluationItem) : PayoutPolicy :=
  ⟨item.policyId, item.holder, item.coverageType, none⟩

/-- `apply` takes its next item, or ends. `settleFromReevaluation` enters `processPayout` without
an authorization. -/
def applyNext (runId : String) (now : ℚ) : Option ClaimState :=
  match s.applies.get? runId, s.reevaluation.runs.get? runId with
  | some ⟨remaining, processed, maxItems, actor, startedAt, none⟩, some run =>
    match ReevaluationService.nextStep s.reevaluation.ledger run remaining processed maxItems with
    | .finish =>
      some { s with
        reevaluation := { s.reevaluation with
          runs := s.reevaluation.runs.set runId
            (ReevaluationService.finishApply run startedAt actor) }
        applies := s.applies.delete runId }
    | .finished item state rest =>
      some { s.setItem runId item.recordId state with
        applies := s.applies.set runId
          ⟨rest, processed + 1, maxItems, actor, startedAt, none⟩ }
    | .settle item rest =>
      some { s.log [.stepStarted (.run runId) item.policyId,
          .payoutEntered (.run runId) item.policyId] with
        applies := s.applies.set runId
          ⟨rest, processed + 1, maxItems, actor, startedAt, some (item,
            newFrame (itemPolicy item) (reevaluationResult item runId now) none)⟩ }
  | _, _ => none

/-- `applyItem` goes on after the payout. -/
def applyPaid (runId : String) : Option ClaimState :=
  match s.applies.get? runId with
  | some ⟨remaining, processed, maxItems, actor, startedAt, some (item, frame)⟩ =>
    let s' := { s with
      applies := s.applies.set runId ⟨remaining, processed, maxItems, actor, startedAt, none⟩ }
    match frame.pc with
    | .returned (some result) =>
      some ({ s' with
        reevaluation := { s'.reevaluation with
          ledger := s'.reevaluation.ledger.markPaid item.policyId } }.setItem runId
            item.recordId ⟨.done, result.settlementTxHash, none⟩)
    | .returned none =>
      some (s'.setItem runId item.recordId
        ⟨.failed, none, some "settlement did not confirm"⟩)
    | .threw message => some (s'.setItem runId item.recordId ⟨.failed, none, some message⟩)
    | _ => none
  | _ => none

/-- A re-evaluation service that planned, or refused to. -/
def replanned (planned : Except JsError (ReevaluationService × Option ReevaluationRun)) :
    ClaimState :=
  match planned with
  | .ok (service, _) => { s with reevaluation := service }
  | .error _ => s

end ClaimState

/-! ## Steps -/

/-- What happens between two awaits, with the answers of what was awaited. -/
inductive ClaimLabel where
  | startScan (now : ℚ)
  | scanNext (now : ℚ)
  | fetched (answer : Option ClaimState.OracleAnswer) (now : ℚ)
  | breakerTripped (opened recorded : Bool) (dbNow : ℚ)
  | decided (answer : Option ConsensusDecision) (trust : Option FeedTrustState) (now : ℚ)
  | pauseAnswered (answer : Option Bool)
  | breakerRead (caller : Caller) (readable : Bool)
  | payoutResumed (caller : Caller) (gate : ClaimState.GateAnswer)
  | settleAnswered (caller : Caller) (answer : ClaimState.SettleAnswer)
  | scanPaid
  | applyPaid (runId : String)
  | applyStarted (runId actor : String) (now : ℚ) (maxItems : Int)
  | applyNext (runId : String) (now : ℚ)
  | onVerdict (v : QuorumVerdict)
  | onTrustTransition (t : TrustTransition)
  | plan (feedId : String) (restoredAt now : ℚ) (backfill : List (ℚ × ℚ))
  | halfOpenBreaker (coverageType : String) (now dbNow : ℚ)
  | closeBreaker (coverageType : String)

/-- One step of the system; `none` when the label does not fit the state. -/
def claimStep (env : ClaimEnv) (s : ClaimState) : ClaimLabel → Option ClaimState
  | .startScan now => s.startScan now
  | .scanNext now => s.scanNext now
  | .fetched answer now => s.fetched env answer now
  | .breakerTripped opened recorded dbNow => s.breakerTripped opened recorded dbNow
  | .decided answer trust now => s.decided env answer trust now
  | .pauseAnswered answer => s.pauseAnswered env answer
  | .breakerRead caller readable => s.breakerRead caller readable
  | .payoutResumed caller gate => s.payoutResumed caller gate
  | .settleAnswered caller answer => s.settleAnswered caller answer
  | .scanPaid => s.scanPaid env
  | .applyPaid runId => s.applyPaid runId
  | .applyStarted runId actor now maxItems => s.applyStarted runId actor now maxItems
  | .applyNext runId now => s.applyNext runId now
  | .onVerdict v => some { s with reevaluation := s.reevaluation.onVerdict v }
  | .onTrustTransition t =>
    some { s with
      reevaluation := (ReevaluationService.onTrustTransition env.host env.sha env.pow2
        env.reevaluation s.reevaluation t).1 }
  | .plan feedId restoredAt now backfill =>
    some (s.replanned (ReevaluationService.plan env.host env.sha env.pow2 env.reevaluation
      s.reevaluation feedId restoredAt now backfill))
  | .halfOpenBreaker coverageType now dbNow =>
    let (breakers, changed) := s.breakers.halfOpen coverageType now dbNow
    some (if changed then
      ({ s with breakers }).log [.breakerHalfOpened coverageType] else s)
  | .closeBreaker coverageType =>
    let (breakers, changed) := s.breakers.close coverageType
    some (if changed then ({ s with breakers }).log [.breakerClosed coverageType] else s)

/-- The policy for which a step enters `processPayout`. -/
def entering (env : ClaimEnv) (s : ClaimState) : ClaimLabel → Option PayoutPolicy
  | .pauseAnswered (some false) =>
    match s.scan.pc with
    | .pausing t _ =>
      if ClaimState.isUntrusted t.trust ∧ env.holdOnUntrustedFeed then none
      else some (ClaimState.scannedPolicy t.policy)
    | _ => none
  | .applyNext runId _ =>
    match s.applies.get? runId, s.reevaluation.runs.get? runId with
    | some ⟨remaining, processed, maxItems, _, _, none⟩, some run =>
      match ReevaluationService.nextStep s.reevaluation.ledger run remaining processed
          maxItems with
      | .settle item _ => some (ClaimState.itemPolicy item)
      | _ => none
    | _, _ => none
  | _ => none

/-- Steps as a relation. -/
def ClaimSteps (env : ClaimEnv) (s : ClaimState) (l : ClaimLabel) (s' : ClaimState) : Prop :=
  claimStep env s l = some s'

end Refract.Claim
