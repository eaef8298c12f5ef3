import Refract.Claim.ReevaluationPlanner

/-!
# The re-evaluation service

`ReevaluationService` and `TrustedReadingHistory` of `reevaluation.service.ts`. Planning is one
synchronous call (`plan`, `onTrustTransition`). `apply` awaits once for every item, so it is given
here by its pieces: what it checks on entry (`canApply`), which item comes next (`nextItem`), what
an item does before it may await (`applyItem`), and what happens at the end (`finishApply`). The
audit entries of a run, which no function reads, are left out.
-/

namespace Refract.Claim

open Lib

/-! ## Trusted readings -/

/-- How long trusted readings are kept. -/
def retentionMs : ℚ := 14 * 24 * 60 * 60000

/-- Trusted values by feed, in time order. -/
abbrev TrustedReadingHistory := OrdMap String (List TrustedReading)

/-- A verdict of the regional quorum. -/
structure QuorumVerdict where
  feedId : String
  trust : FeedTrustState
  value : Option ℚ
  evaluatedAt : ℚ

namespace TrustedReadingHistory

/-- Adds a reading unless one of the same time and source is there; drops what is too old. -/
def add (history : TrustedReadingHistory) (feedId : String) (reading : TrustedReading) :
    TrustedReadingHistory :=
  let list := (history.get? feedId).getD []
  if list.any fun r => r.observedAt = reading.observedAt ∧ r.provenance = reading.provenance then
    history
  else
    let cutoff := reading.observedAt - retentionMs
    history.set feedId (sortBy (fun a b => compare a.observedAt b.observedAt)
      ((list ++ [reading]).filter fun r => cutoff ≤ r.observedAt))

def recordVerdict (history : TrustedReadingHistory) (v : QuorumVerdict) : TrustedReadingHistory :=
  match v.trust, v.value with
  | .trusted, some value => add history v.feedId ⟨v.evaluatedAt, value, .quorum⟩
  | _, _ => history

/-- The readings of a feed observed between two times. -/
def between (history : TrustedReadingHistory) (feedId : String) (start stop : ℚ) :
    List TrustedReading :=
  ((history.get? feedId).getD []).filter fun r => start ≤ r.observedAt ∧ r.observedAt ≤ stop

end TrustedReadingHistory

/-! ## Runs -/

inductive ItemStatus where
  | pending
  | done
  | failed
  | flagged
  | reversalApproved
  deriving DecidableEq, Repr

structure ItemState where
  status : ItemStatus
  txHash : Option String
  error : Option String

inductive RunStatus where
  | planned
  | applying
  | applied
  | partiallyApplied
  deriving DecidableEq, Repr

structure ReevaluationRun where
  plan : ReevaluationPlan
  status : RunStatus
  createdAt : ℚ
  appliedAt : Option ℚ
  appliedBy : Option String
  itemStatus : OrdMap String ItemState

/-- A change of trust reported by the regional quorum. -/
structure TrustTransition where
  feedId : String
  target : FeedTrustState
  atTime : ℚ

structure ReevaluationConfig where
  lookbackMs : ℚ
  confirmWindowMs : ℚ
  triggerConfigFor : Nat → TriggerStabilityConfig ℚ

def defaultReevaluationConfig : ReevaluationConfig where
  lookbackMs := 15 * 60000
  confirmWindowMs := 30 * 60000
  triggerConfigFor coverageType := defaultTriggerConfig (some coverageType) ⟨none, none⟩

/-- The state of `ReevaluationService`. -/
structure ReevaluationService where
  ledger : AdjudicationLedger
  history : TrustedReadingHistory
  degradedSince : OrdMap String ℚ
  runs : OrdMap String ReevaluationRun

namespace ReevaluationService

def start : ReevaluationService :=
  ⟨AdjudicationLedger.empty, OrdMap.empty, OrdMap.empty, OrdMap.empty⟩

def onVerdict (service : ReevaluationService) (v : QuorumVerdict) : ReevaluationService :=
  { service with history := service.history.recordVerdict v }

/-- A run as planned: every item pending. -/
def newRun (plan : ReevaluationPlan) (now : ℚ) : ReevaluationRun where
  plan
  status := .planned
  createdAt := now
  appliedAt := none
  appliedBy := none
  itemStatus := plan.items.foldl
    (fun m i => m.set i.recordId ⟨.pending, none, none⟩) OrdMap.empty

section Planning

variable (host : Host) (sha : String → String) (pow2 : ℚ → ℚ) (config : ReevaluationConfig)

/-- The smallest decision time of the records. -/
def earliestDecision (first : AdjudicationRecord) (rest : List AdjudicationRecord) : ℚ :=
  rest.foldl (fun m r => min m r.decidedAt) first.decidedAt

/-- Plans a run over a feed's pending records; a run with the same id is returned as it is. -/
def buildRun (service : ReevaluationService) (feedId : String) (restoredAt now : ℚ)
    (backfill : List (ℚ × ℚ)) (trackedSince : Option ℚ) :
    Except JsError (ReevaluationService × Option ReevaluationRun) :=
  match service.ledger.pending feedId with
  | [] => .ok (service, none)
  | first :: rest => do
      let earliest := earliestDecision first rest
      let degradedSince := min (trackedSince.getD earliest) earliest
      let trustedReadings :=
        service.history.between feedId (degradedSince - config.lookbackMs)
            (restoredAt + config.confirmWindowMs) ++
          backfill.map fun b => ⟨b.1, b.2, .operatorBackfill⟩
      let plan ← planReevaluation host sha pow2
        { feedId, degradedSince, restoredAt, records := first :: rest, trustedReadings,
          triggerConfigFor := config.triggerConfigFor,
          alreadyPaidPolicies := service.ledger.paidPolicies,
          lookbackMs := config.lookbackMs, confirmWindowMs := config.confirmWindowMs }
      match service.runs.get? plan.runId with
      | some existing => .ok (service, some existing)
      | none =>
        let run := newRun plan now
        .ok ({ service with
                runs := service.runs.set plan.runId run
                ledger := service.ledger.markReevaluated ((first :: rest).map (·.id))
                  plan.runId }, some run)

/-- Planning on request, refused while the feed is untrusted. -/
def plan (service : ReevaluationService) (feedId : String) (restoredAt now : ℚ)
    (backfill : List (ℚ × ℚ)) : Except JsError (ReevaluationService × Option ReevaluationRun) :=
  if service.degradedSince.contains feedId then
    .error (.error ("Feed " ++ feedId ++
      " is still untrusted; re-evaluation waits for trust to be restored"))
  else buildRun host sha pow2 config service feedId restoredAt now backfill none

/-- Planning when a feed is trusted again. An exception leaves the feed marked as trusted. -/
def onTrustTransition (service : ReevaluationService) (t : TrustTransition) :
    ReevaluationService × Except JsError (Option ReevaluationRun) :=
  if t.target ≠ .trusted then
    if service.degradedSince.contains t.feedId then (service, .ok none)
    else
      ({ service with degradedSince := service.degradedSince.set t.feedId t.atTime }, .ok none)
  else
    let since := service.degradedSince.get? t.feedId
    let cleared := { service with degradedSince := service.degradedSince.delete t.feedId }
    if since = none ∧ service.ledger.pending t.feedId = [] then (cleared, .ok none)
    else match buildRun host sha pow2 config cleared t.feedId t.atTime t.atTime [] since with
      | .ok (planned, run) => (planned, .ok run)
      | .error e => (cleared, .error e)

end Planning

/-! ## Applying a run -/

/-- What `apply` checks before it starts. -/
def canApply (run : ReevaluationRun) (maxItems : Int) : Except JsError Unit :=
  if run.status = .applying then
    .error (.error ("Re-evaluation run " ++ run.plan.runId ++ " is already being applied"))
  else if maxItems < 1 then .error (.error "maxItems must be a positive integer")
  else .ok ()

/-- The status of an item in its run. -/
def itemStatusOf (run : ReevaluationRun) (item : ReevaluationItem) : ItemStatus :=
  ((run.itemStatus.get? item.recordId).map (·.status)).getD .pending

/-- The next unfinished item, and the items after it. -/
def nextItem (run : ReevaluationRun) :
    List ReevaluationItem → Option (ReevaluationItem × List ReevaluationItem)
  | [] => none
  | item :: rest =>
    if itemStatusOf run item = .pending ∨ itemStatusOf run item = .failed then some (item, rest)
    else nextItem run rest

/-- What an item does before it may await: it ends at once, or a payout is attempted. -/
inductive ItemEffect where
  | finished (state : ItemState)
  | settle

def applyItem (ledger : AdjudicationLedger) (item : ReevaluationItem) (state : ItemState) :
    ItemEffect :=
  match item.action with
  | .flagOverpayment | .manualReview => .finished { state with status := .flagged }
  | .settle =>
    if ledger.isPaid item.policyId then
      .finished { state with
        status := .done
        error := some "policy already paid; skipped to avoid a double payout" }
    else .settle
  | _ => .finished { state with status := .done }

/-- What `apply` does next: it ends, it finishes an item at once, or it attempts a payout. -/
inductive NextStep where
  | finish
  | finished (item : ReevaluationItem) (state : ItemState) (rest : List ReevaluationItem)
  | settle (item : ReevaluationItem) (rest : List ReevaluationItem)

/-- The next step of `apply`, at most `maxItems` unfinished items in a call. -/
def nextStep (ledger : AdjudicationLedger) (run : ReevaluationRun)
    (remaining : List ReevaluationItem) (processed : Nat) (maxItems : Int) : NextStep :=
  match nextItem run remaining with
  | none => .finish
  | some (item, rest) =>
    if maxItems ≤ processed then .finish
    else match applyItem ledger item
        ((run.itemStatus.get? item.recordId).getD ⟨.pending, none, none⟩) with
      | .finished state => .finished item state rest
      | .settle => .settle item rest

/-- The status of a run whose `apply` has ended. -/
def finishApply (run : ReevaluationRun) (now : ℚ) (actor : String) : ReevaluationRun :=
  { run with
    status := if run.itemStatus.values.any fun s => s.status = .failed ∨ s.status = .pending then
      .partiallyApplied else .applied
    appliedAt := some now
    appliedBy := some actor }

end ReevaluationService

end Refract.Claim
