import Refract.Consensus.Offboarding

/-!
# Offboarding runs as a transition system

`OffboardingService` of `offboarding.ts`. `offboard` and `sweepRetention` await the deletion of the
credential, the deletion of each payload body and the return of `purge`; between two awaits they run
without interruption. A step of the system is one such segment of one call, or a call of the gate of
the hold service. A call that awaits something is `Suspended`, with what it needs to go on.

A body is deleted in the segment before the await, the `payload_purged` event is appended in the
segment after it. Deletions fail as the labels say; a hash that is not a file name makes the
deletion fail by itself.
-/

namespace Refract.Consensus

open Lib

/-! ## Calls and what they await -/

structure OffboardingOptions where
  actor : String
  reason : String
  dryRun : Bool
  acknowledgeQuorumLoss : Bool

structure ExecutedSteps where
  retired : Bool
  credentialRevoked : Bool
  purged : Nat

structure OffboardingReport where
  dryRun : Bool
  offboardingId : Option String
  plan : OffboardingPlan
  executed : Option ExecutedSteps

/-- A call of `offboard` past its checks. -/
structure OffboardingRun where
  offboardingId : String
  sourceId : String
  opts : OffboardingOptions
  plan : OffboardingPlan
  retired : Bool
  credentialRevoked : Bool

/-- Who called `purge`: a call of `offboard`, or `sweepRetention` with the sources it has still to
look at and its count. -/
inductive PurgeCaller where
  | offboard (run : OffboardingRun)
  | sweep (sources : List String) (total : Nat)

/-- A call at an await: for the credential store, for the deletion of a body, or for the return of
`purge`. -/
inductive Suspended where
  | revoking (run : OffboardingRun) (credentialRef : String)
  | purging (offboardingId sourceId hash : String) (outcome : Except JsError Unit)
      (rest : List String) (n : Nat) (caller : PurgeCaller)
  | purged (n : Nat) (caller : PurgeCaller)

/-- How a call ends. -/
inductive CallResult where
  | offboarded (result : Except JsError OffboardingReport)
  | swept (total : Nat)

/-- How a segment of a call ends. -/
inductive SegmentEnd where
  | suspended (call : Suspended)
  | finished (result : CallResult)

/-! ## The parts of a call -/

/-- The id of the last offboarding started for a source. -/
def lastRun (events : List EvidenceEvent) (sourceId : String) : Option String :=
  truthy (events.reverse.findSome? fun e => match e.data with
    | .offboardingStarted o => if o.sourceId = sourceId then some o.offboardingId else none
    | _ => none)

/-- An offboarding that started and never completed. -/
def resumableRun (events : List EvidenceEvent) (sourceId : String) : Option String :=
  (lastRun events sourceId).filter fun run => !events.any fun e => match e.data with
    | .offboardingCompleted o => o.offboardingId = run
    | _ => false

variable (env : HoldEnv) (s : EvidenceState)

/-- `OffboardingService.plan`. -/
def planNow (sourceId : String) : EvidenceState × Except JsError OffboardingPlan :=
  (s.tick, planOffboarding env.host s.events sourceId (s.now env))

/-- `OffboardingService.start`. -/
def startRun (sourceId : String) (plan : OffboardingPlan) (opts : OffboardingOptions) :
    EvidenceState × String :=
  let offboardingId := "ob_" ++ takeChars 20 (env.sha (sourceId ++ ":" ++
    env.host.numberToString (s.now env) ++ ":" ++ toString s.events.length))
  let s := s.tick.append env (.offboardingStarted
    { offboardingId
      sourceId
      actor := opts.actor
      reason := opts.reason
      purgeScope := plan.purge.map (·.hash)
      retained := plan.retain.map fun r => (r.hash, r.reason) })
  (s.audit env "source.offboarding_started" opts.actor opts.reason, offboardingId)

/-- The run a call of `offboard` belongs to: one that can be resumed, or a new one. -/
def resumeOrStart (sourceId : String) (plan : OffboardingPlan) (opts : OffboardingOptions) :
    EvidenceState × String :=
  match resumableRun s.events sourceId with
  | some run => (s, run)
  | none => startRun env s sourceId plan opts

/-- Retires a source by a new version. -/
def retireSource (sourceId : String) : EvidenceState :=
  match sourceVersionAt s.events sourceId none with
  | none => s
  | some current =>
    let atTime := s.ledger.reserveTimestamp (env.clock s.ticks)
    s.tick.appendEvent env
      ⟨.sourceVersion { current.data with
          version := latestSourceVersionNumber s.events sourceId + 1
          status := .retired
          warmupUntil := none
          credentialRef := none
          effectiveFrom := atTime }, some atTime⟩

/-- The audit event of a step that failed, and the exception it ends in. -/
def stepFailed (offboardingId what : String) (e : JsError) : EvidenceState × JsError :=
  (s.audit env "source.offboarding_failed" "system" (what ++ ": " ++ e.message),
    .error ("offboarding " ++ offboardingId ++ " stopped at \"" ++ what ++ "\": " ++ e.message ++
      ". Re-run to resume."))

/-- Deletes a body, unless the deletion fails. -/
def deleteBody (hash : String) (failure : Option JsError) : EvidenceState × Except JsError Unit :=
  match s.payloads.delete hash, failure with
  | .error e, _ => (s, .error e)
  | .ok _, some e => (s, .error e)
  | .ok payloads, none => ({ s with payloads }, .ok ())

/-- `purge` up to its next await. -/
def purgeNext (offboardingId sourceId : String) (failure : Option JsError) (n : Nat)
    (caller : PurgeCaller) : List String → EvidenceState × SegmentEnd
  | [] => (s, .suspended (.purged n caller))
  | hash :: rest =>
    let (s, outcome) := deleteBody s hash failure
    (s, .suspended (.purging offboardingId sourceId hash outcome rest n caller))

/-- The completion record of `offboard`. -/
def completeRun (run : OffboardingRun) (purged : Nat) : EvidenceState × SegmentEnd :=
  match planNow env s run.sourceId with
  | (s, .error e) => (s, .finished (.offboarded (.error e)))
  | (s, .ok after) =>
    let s := s.append env (.offboardingCompleted
      { offboardingId := run.offboardingId
        sourceId := run.sourceId
        purged := after.alreadyPurged
        retained := after.retain.length })
    (s.audit env "source.offboarding_completed" run.opts.actor run.opts.reason,
      .finished (.offboarded (.ok
        { dryRun := false
          offboardingId := some run.offboardingId
          plan := run.plan
          executed := some ⟨run.retired, run.credentialRevoked, purged⟩ })))

/-- The loop of `sweepRetention` up to its next await. A source whose plan throws is skipped. -/
def sweepSources (env : HoldEnv) (failure : Option JsError) (total : Nat) :
    EvidenceState → List String → EvidenceState × SegmentEnd
  | s, [] => (s, .finished (.swept total))
  | s, sourceId :: rest =>
    match planNow env s sourceId with
    | (s, .error _) => sweepSources env failure total s rest
    | (s, .ok plan) =>
      if plan.purge = [] then sweepSources env failure total s rest
      else match lastRun s.events sourceId with
      | none => sweepSources env failure total s rest
      | some run => purgeNext s run sourceId failure 0 (.sweep rest total)
          (plan.purge.map (·.hash))

/-! ## Segments -/

/-- The sources whose last recorded version is retired, in the order in which they were retired. -/
def retiredSources (events : List EvidenceEvent) : List String :=
  (events.foldl (fun m e => match e.data with
    | .sourceVersion v =>
      if v.status = .retired then m.set v.sourceId () else m.delete v.sourceId
    | _ => m) (OrdMap.empty : OrdMap String Unit)).keys

/-- `offboard` past its checks, up to its first await. -/
def executePlan (sourceId : String) (opts : OffboardingOptions) (plan : OffboardingPlan)
    (failure : Option JsError) : EvidenceState × SegmentEnd :=
  let (s, offboardingId) := resumeOrStart env s sourceId plan opts
  let s := if plan.alreadyRetired then s else retireSource env s sourceId
  let run : OffboardingRun := ⟨offboardingId, sourceId, opts, plan, !plan.alreadyRetired, false⟩
  match plan.credential with
  | some ⟨credentialRef, .revoke⟩ => (s, .suspended (.revoking run credentialRef))
  | _ => purgeNext s offboardingId sourceId failure 0 (.offboard run) (plan.purge.map (·.hash))

/-- The first segment of `offboard`. -/
def offboard (sourceId : String) (opts : OffboardingOptions) (failure : Option JsError) :
    EvidenceState × SegmentEnd :=
  match planNow env s sourceId with
  | (s, .error e) => (s, .finished (.offboarded (.error e)))
  | (s, .ok plan) =>
    if opts.dryRun then
      (s, .finished (.offboarded (.ok ⟨true, none, plan, none⟩)))
    else if plan.quorum.dropsBelowQuorum && !opts.acknowledgeQuorumLoss then
      (s, .finished (.offboarded (.error (.error ("retiring " ++ sourceId ++ " leaves " ++
        toString plan.quorum.remainingEligibleSources ++ " eligible source(s); policy v" ++
        (plan.quorum.policyVersion.map env.host.numberToString).getD "null" ++ " requires " ++
        (plan.quorum.minSources.map env.host.numberToString).getD "null" ++
        ". Re-run with acknowledgeQuorumLoss once a replacement is planned.")))))
    else executePlan env s sourceId opts plan failure

/-- The first segment of `sweepRetention`. -/
def sweepRetention (failure : Option JsError) : EvidenceState × SegmentEnd :=
  sweepSources env failure 0 s (retiredSources s.events)

/-- `purge` has returned `n` to its caller. -/
def purgeReturned (n : Nat) (caller : PurgeCaller) (failure : Option JsError) :
    EvidenceState × SegmentEnd :=
  match caller with
  | .offboard run => completeRun env s run n
  | .sweep sources total => sweepSources env failure (total + n) s sources

/-- A call of `purge` has thrown: `offboard` throws as well, `sweepRetention` goes on with the next
source. -/
def purgeThrown (e : JsError) : PurgeCaller → EvidenceState × SegmentEnd
  | .offboard _ => (s, .finished (.offboarded (.error e)))
  | .sweep sources total => (s, .suspended (.purged 0 (.sweep sources total)))

/-- A segment after an await. `revocation` says how the deletion of the credential has ended,
`failure` how the next deletion of a body ends. -/
def resumeCall (revocation failure : Option JsError) : Suspended → EvidenceState × SegmentEnd
  | .revoking run credentialRef =>
    match revocation with
    | some e =>
      let (s, thrown) := stepFailed env s run.offboardingId "credential" e
      (s, .finished (.offboarded (.error thrown)))
    | none =>
      let s := s.append env
        (.credentialRevoked ⟨run.offboardingId, run.sourceId, credentialRef⟩)
      purgeNext s run.offboardingId run.sourceId failure 0
        (.offboard { run with credentialRevoked := true }) (run.plan.purge.map (·.hash))
  | .purging offboardingId sourceId hash outcome rest n caller =>
    match outcome with
    | .error e =>
      let (s, thrown) := stepFailed env s offboardingId ("purge " ++ hash) e
      purgeThrown s thrown caller
    | .ok () =>
      let s := s.append env (.payloadPurged
        ⟨hash, sourceId, offboardingId, "beyond licence retention after offboarding"⟩)
      purgeNext s offboardingId sourceId failure (n + 1) caller rest
  | .purged n caller => purgeReturned env s n caller failure

/-! ## The system -/

structure OffboardingState where
  store : EvidenceState
  running : List Suspended
  results : List CallResult

inductive OffboardingLabel where
  | offboard (sourceId : String) (opts : OffboardingOptions) (failure : Option JsError)
  | sweepRetention (failure : Option JsError)
  | resume (index : Nat) (revocation failure : Option JsError)
  | gate (candidate : HoldCandidate) (governed : Bool) (answer : Except JsError DecideAnswer)

/-- The state after a segment; `running` are the other calls. -/
def afterSegment (s : OffboardingState) (running : List Suspended) :
    EvidenceState × SegmentEnd → OffboardingState
  | (store, .suspended call) => ⟨store, running ++ [call], s.results⟩
  | (store, .finished result) => ⟨store, running, s.results ++ [result]⟩

/-- One step of the system; `none` when there is no such call to resume. -/
def offboardingStep (s : OffboardingState) : OffboardingLabel → Option OffboardingState
  | .offboard sourceId opts failure =>
    some (afterSegment s s.running (offboard env s.store sourceId opts failure))
  | .sweepRetention failure =>
    some (afterSegment s s.running (sweepRetention env s.store failure))
  | .resume index revocation failure =>
    match s.running[index]? with
    | none => none
    | some call => some (afterSegment s (s.running.eraseIdx index)
        (resumeCall env s.store revocation failure call))
  | .gate candidate governed answer =>
    some { s with store := (gate env s.store candidate governed answer).1 }

/-- Steps as a relation. -/
def OffboardingSteps (s : OffboardingState) (l : OffboardingLabel) (s' : OffboardingState) : Prop :=
  offboardingStep env s l = some s'

end Refract.Consensus
