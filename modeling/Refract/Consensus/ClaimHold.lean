import Refract.Consensus.EvidenceCompleteness

/-!
# Claim holds as a transition system

`ClaimHoldService` of `claim-hold.service.ts`. A hold is never stored: it is what folding the hold
events of the ledger gives (`foldHolds`). The operations are the gate before a settlement, the
re-evaluation of held claims, the disposition by an operator and the mark of a confirmed settlement.

`ConsensusService` is an empty file in the repository. `decide` is taken to append one decision
event and to return it, or to throw; which decision, is part of the label of the step.

No operation awaits anything, so each is one step, except that `reevaluateAll` is cut into one step
for each hold of its list, with every other operation disabled until the list is done. The clock is
an arbitrary sequence of readings, one for each call the service makes.
-/

namespace Refract.Consensus

open Lib

/-! ## Folding hold events -/

inductive HoldStatus where
  | payoutHeld
  | released
  | escalated
  | approved
  | denied
  | settled
  deriving DecidableEq, Repr

def HoldStatus.text : HoldStatus → String
  | .payoutHeld => "payout_held"
  | .released => "released"
  | .escalated => "escalated"
  | .approved => "approved"
  | .denied => "denied"
  | .settled => "settled"

def HoldStatus.isTerminal : HoldStatus → Bool
  | .settled | .denied => true
  | _ => false

structure DispositionRecord where
  disposition : HoldDisposition
  actor : String
  note : String
  atTime : ℚ

structure ClaimHold where
  holdId : String
  policyId : String
  holder : String
  feedId : String
  decisionId : String
  currentDecisionId : String
  status : HoldStatus
  gaps : List EvidenceGap
  reason : String
  placedAt : ℚ
  deadline : ℚ
  policyExpiresAt : JsNumber
  escalation : Option HoldEscalationReason
  disposition : Option DispositionRecord
  updatedAt : ℚ

/-- Changes a hold, if there is one with the id. -/
def patch (holds : OrdMap String ClaimHold) (holdId : String) (f : ClaimHold → ClaimHold) :
    OrdMap String ClaimHold :=
  match holds.get? holdId with
  | some hold => holds.set holdId (f hold)
  | none => holds

/-- A hold as it is placed. -/
def placedHold (e : HoldPlacedEvent) (recordedAt : ℚ) : ClaimHold where
  holdId := e.holdId
  policyId := e.policyId
  holder := e.holder
  feedId := e.feedId
  decisionId := e.decisionId
  currentDecisionId := e.decisionId
  status := .payoutHeld
  gaps := e.gaps
  reason := e.reason
  placedAt := recordedAt
  deadline := e.deadline
  policyExpiresAt := e.policyExpiresAt
  escalation := none
  disposition := none
  updatedAt := recordedAt

/-- The status an operator's disposition gives. -/
def HoldDisposition.status : HoldDisposition → HoldStatus
  | .approvePayout => .approved
  | .deny => .denied
  | .extendHold => .payoutHeld

/-- A hold after a disposition; an extension with a deadline other than zero moves the deadline. -/
def disposedHold (e : HoldDisposedEvent) (recordedAt : ℚ) (hold : ClaimHold) : ClaimHold :=
  let disposed := { hold with
    status := e.disposition.status
    disposition := some ⟨e.disposition, e.actor, e.note, recordedAt⟩
    updatedAt := recordedAt }
  match e.disposition, e.deadline with
  | .extendHold, some deadline =>
    if deadline = 0 then disposed else { disposed with deadline, escalation := none }
  | _, _ => disposed

/-- One iteration of `foldHolds`. -/
def foldStep (holds : OrdMap String ClaimHold) (e : EvidenceEvent) : OrdMap String ClaimHold :=
  match e.data with
  | .holdPlaced p => holds.set p.holdId (placedHold p e.recordedAt)
  | .holdReevaluated r => patch holds r.holdId fun hold =>
    { hold with
      currentDecisionId := r.decisionId
      gaps := r.gaps
      reason := describeGaps r.gaps
      updatedAt := e.recordedAt }
  | .holdReleased r => patch holds r.holdId fun hold =>
    { hold with
      status := .released
      currentDecisionId := r.decisionId
      gaps := []
      reason := r.reason
      updatedAt := e.recordedAt }
  | .holdEscalated r => patch holds r.holdId fun hold =>
    { hold with
      status := .escalated
      escalation := some r.escalation
      reason := r.reason
      updatedAt := e.recordedAt }
  | .holdDisposed d => patch holds d.holdId (disposedHold d e.recordedAt)
  | .holdSettled h => patch holds h.holdId fun hold =>
    { hold with status := .settled, updatedAt := e.recordedAt }
  | _ => holds

/-- Folds hold events into current hold state. -/
def foldHolds (events : List EvidenceEvent) : OrdMap String ClaimHold :=
  events.foldl foldStep OrdMap.empty

/-- `ClaimHoldService.list`, oldest hold first. -/
def listHolds (events : List EvidenceEvent) (status : Option HoldStatus) : List ClaimHold :=
  sortBy (fun a b => compare a.placedAt b.placedAt)
    ((foldHolds events).values.filter fun h => status = none ∨ status = some h.status)

/-- `activeHoldFor`: the latest hold of a policy that is neither settled nor denied. -/
def activeHoldFor (events : List EvidenceEvent) (policyId : String) : Option ClaimHold :=
  ((listHolds events none).filter fun h => h.policyId = policyId ∧ !h.status.isTerminal).getLast?

/-- The latest denied hold of a policy. -/
def deniedHoldFor (events : List EvidenceEvent) (policyId : String) : Option ClaimHold :=
  ((listHolds events none).filter fun h => h.policyId = policyId ∧ h.status = .denied).getLast?

/-! ## The stores and the clock -/

/-- Configuration and host of the service. `clock n` is what the clock reads when it is read for
the `n`th time. -/
structure HoldEnv where
  host : Host
  sha : String → String
  clock : Nat → ℚ
  holdMaxDurationMs : ℚ

/-- The ledger, the payload store, and how often the clock has been read. -/
structure EvidenceState where
  ledger : EvidenceLedger
  payloads : PayloadStore
  ticks : Nat

namespace EvidenceState

def events (s : EvidenceState) : List EvidenceEvent := s.ledger.events

/-- `ledger.now()`. -/
def now (env : HoldEnv) (s : EvidenceState) : ℚ := s.ledger.now (env.clock s.ticks)

/-- The clock has been read. -/
def tick (s : EvidenceState) : EvidenceState := { s with ticks := s.ticks + 1 }

/-- `ledger.append` of an event, with or without a recording time of its own. -/
def appendEvent (env : HoldEnv) (s : EvidenceState) (event : NewEvidenceEvent) : EvidenceState :=
  { s with ledger := s.ledger.append (env.clock s.ticks) event, ticks := s.ticks + 1 }

def append (env : HoldEnv) (s : EvidenceState) (body : EventBody) : EvidenceState :=
  s.appendEvent env ⟨body, none⟩

def audit (env : HoldEnv) (s : EvidenceState) (action actor reason : String) : EvidenceState :=
  s.append env (.audit ⟨action, actor, reason⟩)

end EvidenceState

/-- What `consensus.decide` appends and returns. -/
structure DecideAnswer where
  decision : DecisionEvent
  recordedAt : Option ℚ
  deriving DecidableEq, Repr

variable (env : HoldEnv) (s : EvidenceState) (hold : ClaimHold)

/-- `consensus.decide` appends its decision, or throws. -/
def decideStep (answer : Except JsError DecideAnswer) :
    EvidenceState × Except JsError DecisionEvent :=
  match answer with
  | .error e => (s, .error e)
  | .ok a => (s.appendEvent env ⟨.decision a.decision, a.recordedAt⟩, .ok a.decision)

/-- `assess`: completeness of the evidence as of now. -/
def assess (decision : DecisionEvent) : EvidenceState × Except JsError (List EvidenceGap) :=
  (s.tick, assessEvidenceCompleteness env.host s.events decision (s.now env) s.payloads)

/-! ## The gate -/

structure HoldCandidate where
  policyId : String
  holder : String
  feedId : String
  policyExpiresAt : JsNumber

inductive GateResult where
  | proceed (holdId : Option String)
  | block (reason : String) (holdId : Option String)

/-- The id of a hold. -/
def holdIdFor (sha : String → String) (policyId decisionId : String) : String :=
  "hold_" ++ takeChars 20 (sha (policyId ++ ":" ++ decisionId))

/-- Places a hold and records it. -/
def place (candidate : HoldCandidate) (decision : DecisionEvent) (gaps : List EvidenceGap) :
    EvidenceState :=
  let placed : HoldPlacedEvent :=
    { holdId := holdIdFor env.sha candidate.policyId decision.decisionId
      policyId := candidate.policyId
      holder := candidate.holder
      feedId := candidate.feedId
      decisionId := decision.decisionId
      gaps
      reason := describeGaps gaps
      deadline := s.now env + env.holdMaxDurationMs
      policyExpiresAt := candidate.policyExpiresAt }
  (s.tick.append env (.holdPlaced placed)).audit env "claim_hold.placed" "system"
    (describeGaps gaps)

/-- The answer for a claim that has a hold. -/
def heldAnswer : GateResult :=
  .block ("claim is " ++ hold.status.text ++ ": " ++ hold.reason) (some hold.holdId)

/-- The answer when the gate has caught an exception. -/
def unavailable (e : JsError) : GateResult :=
  .block ("hold gate unavailable (" ++ e.message ++ ")") none

/-- The part of `gate` after the consensus decision. -/
def gateDecision (candidate : HoldCandidate) (decision : DecisionEvent) :
    EvidenceState × GateResult :=
  if decision.outcome ≠ .decision then
    (s, .block ("consensus produced no decision (" ++ decision.reason ++ ")") none)
  else if decision.triggered = false then
    (s, .block ("consensus decision " ++ decision.decisionId ++ " is not triggered") none)
  else
    match assess env s decision with
    | (s, .error e) => (s, unavailable e)
    | (s, .ok []) => (s, .proceed none)
    | (s, .ok gaps) =>
      let s := place env s candidate decision gaps
      let holdId := holdIdFor env.sha candidate.policyId decision.decisionId
      match (foldHolds s.events).get? holdId with
      | some hold => (s, heldAnswer hold)
      | none => (s, unavailable (.error ("unknown hold " ++ holdId)))

/-- `ClaimHoldService.gate`. `governed` and `answer` are what the consensus service answers. -/
def gate (candidate : HoldCandidate) (governed : Bool) (answer : Except JsError DecideAnswer) :
    EvidenceState × GateResult :=
  match activeHoldFor s.events candidate.policyId with
  | some existing =>
    if existing.status = .released ∨ existing.status = .approved then
      (s, .proceed (some existing.holdId))
    else (s, heldAnswer existing)
  | none =>
    match deniedHoldFor s.events candidate.policyId with
    | some hold =>
      (s, .block ("payout denied by operator " ++
        (hold.disposition.map (·.actor)).getD "undefined") (some hold.holdId))
    | none =>
      if governed = false then (s, .proceed none)
      else
        match decideStep env s answer with
        | (s, .error e) => (s, unavailable e)
        | (s, .ok decision) => gateDecision env s candidate decision

/-! ## Re-evaluation -/

def release (decision : DecisionEvent) : EvidenceState :=
  let reason := "evidence complete and verdict stands (" ++ decision.decisionId ++ ": " ++
    decision.reason ++ ")"
  (s.append env (.holdReleased ⟨hold.holdId, decision.decisionId, reason⟩)).audit env
    "claim_hold.released" "system" reason

def escalate (escalation : HoldEscalationReason) (reason : String) : EvidenceState :=
  (s.append env (.holdEscalated ⟨hold.holdId, escalation, reason⟩)).audit env
    "claim_hold.escalated" "system" reason

inductive ReevaluateOutcome where
  | released
  | escalated
  | stillHeld

/-- The fewest gaps seen so far, and the decision they belong to. -/
def fewerGaps (best : Option (List EvidenceGap × String)) (gaps : List EvidenceGap)
    (decisionId : String) : Option (List EvidenceGap × String) :=
  match best with
  | none => some (gaps, decisionId)
  | some b => if gaps.length < b.1.length then some (gaps, decisionId) else best

/-- Records the gaps that are left, when they have changed. Two gap lists have the same JSON text
exactly when they are equal. -/
def keepHeld (best : Option (List EvidenceGap × String)) : EvidenceState :=
  let gaps := (best.map (·.1)).getD hold.gaps
  if gaps = hold.gaps then s
  else s.append env (.holdReevaluated
    ⟨hold.holdId, (best.map (·.2)).getD hold.currentDecisionId, gaps⟩)

/-- The loop over the candidate decisions of a hold. -/
def tryCandidates (env : HoldEnv) (hold : ClaimHold) :
    EvidenceState → List DecisionEvent → Option (List EvidenceGap × String) →
      EvidenceState × Except JsError ReevaluateOutcome
  | s, [], best => (keepHeld env s hold best, .ok .stillHeld)
  | s, d :: rest, best =>
    match assess env s d with
    | (s, .error e) => (s, .error e)
    | (s, .ok []) => (release env s hold d, .ok .released)
    | (s, .ok gaps) => tryCandidates env hold s rest (fewerGaps best gaps d.decisionId)

/-- The decisions a hold may be released on: the fresh one, then the original one. -/
def candidates (events : List EvidenceEvent) (hold : ClaimHold) (fresh : DecisionEvent) :
    List DecisionEvent :=
  (if fresh.outcome = .decision then [fresh] else []) ++
    ((decisionById events hold.decisionId).map (·.data)).toList

/-- The part of `reevaluate` after the fresh decision is known. -/
def reevaluateFresh (fresh : DecisionEvent) : EvidenceState × Except JsError ReevaluateOutcome :=
  if fresh.outcome = .decision ∧ fresh.triggered = false then
    (escalate env s hold .verdictContradicted ("newer evidence contradicts the verdict: " ++
      fresh.reason ++ " (" ++ fresh.decisionId ++ ")"), .ok .escalated)
  else tryCandidates env hold s (candidates s.events hold fresh) none

/-- `reevaluate` for one hold. The decision of a feed is asked for once in a call of
`reevaluateAll`; `answer` is what `consensus.decide` answers if it is asked. -/
def reevaluate (freshByFeed : OrdMap String DecisionEvent) (answer : Except JsError DecideAnswer) :
    EvidenceState × OrdMap String DecisionEvent × Except JsError ReevaluateOutcome :=
  let now := s.now env
  let s := s.tick
  if hold.policyExpiresAt.lt (.finite now) then
    (escalate env s hold .policyExpiredWhileHeld
      "policy expired while the claim was held; trigger predates expiry", freshByFeed,
      .ok .escalated)
  else if hold.deadline ≤ now then
    (escalate env s hold .deadlineExceeded
      ("evidence still incomplete at deadline: " ++ describeGaps hold.gaps), freshByFeed,
      .ok .escalated)
  else
    match freshByFeed.get? hold.feedId with
    | some fresh =>
      let (s, outcome) := reevaluateFresh env s hold fresh
      (s, freshByFeed, outcome)
    | none =>
      match decideStep env s answer with
      | (s, .error e) => (s, freshByFeed, .error e)
      | (s, .ok fresh) =>
        let (s, outcome) := reevaluateFresh env s hold fresh
        (s, freshByFeed.set hold.feedId fresh, outcome)

/-! ## Dispositions and settlements -/

/-- `ClaimHoldService.dispose`. -/
def dispose (holdId : String) (disposition : HoldDisposition) (actor note : String)
    (extendMs : Option ℚ) : EvidenceState × Except JsError ClaimHold :=
  if isBlank actor ∨ isBlank note then (s, .error (.error "actor and note are required"))
  else match (foldHolds s.events).get? holdId with
  | none => (s, .error (.error ("unknown hold " ++ holdId)))
  | some hold =>
    if hold.status ≠ .escalated ∧ hold.status ≠ .payoutHeld then
      (s, .error (.error ("hold " ++ holdId ++ " is " ++ hold.status.text ++
        "; only held or escalated claims can be disposed")))
    else if disposition = .extendHold ∧ ¬∃ ms ∈ extendMs, 0 < ms then
      (s, .error (.error "extend_hold requires extendMs > 0"))
    else
      let deadline := if disposition = .extendHold then extendMs.map (s.now env + ·) else none
      let s := if disposition = .extendHold then s.tick else s
      let s := (s.append env (.holdDisposed ⟨holdId, disposition, actor, note, deadline⟩)).audit
        env ("claim_hold." ++ disposition.text) actor note
      match (foldHolds s.events).get? holdId with
      | some hold => (s, .ok hold)
      | none => (s, .error (.error ("unknown hold " ++ holdId)))

/-- `ClaimHoldService.markSettled`. -/
def markSettled (holdId : String) : EvidenceState × Except JsError Unit :=
  match (foldHolds s.events).get? holdId with
  | none => (s, .error (.error ("unknown hold " ++ holdId)))
  | some hold =>
    if hold.status = .settled then (s, .ok ())
    else ((s.append env (.holdSettled ⟨holdId⟩)).audit env "claim_hold.settled" "system"
      "settlement confirmed", .ok ())

/-! ## The system -/

/-- A call of `reevaluateAll` under way: the holds still to be looked at, the decisions it has asked
for, and its counts. -/
structure Sweep where
  remaining : List ClaimHold
  freshByFeed : OrdMap String DecisionEvent
  released : Nat
  escalated : Nat
  stillHeld : Nat

/-- The state of the service, with the hold ids that `gate` has let proceed. -/
structure HoldState where
  store : EvidenceState
  granted : List String
  sweep : Option Sweep

/-- An empty ledger and an empty payload store. -/
def HoldState.start : HoldState := ⟨⟨EvidenceLedger.empty, ⟨[]⟩, 0⟩, [], none⟩

inductive HoldLabel where
  | gate (candidate : HoldCandidate) (governed : Bool) (answer : Except JsError DecideAnswer)
  | startSweep
  | sweepNext (answer : Except JsError DecideAnswer)
  | dispose (holdId : String) (disposition : HoldDisposition) (actor note : String)
      (extendMs : Option ℚ)
  | markSettled (holdId : String)
  | record (event : NewEvidenceEvent)
  | setPayloads (payloads : PayloadStore)

/-- Events recorded by others: neither a decision nor about a hold. -/
def EventBody.isForeign : EventBody → Bool
  | .decision _ | .holdPlaced _ | .holdReevaluated _ | .holdReleased _ | .holdEscalated _
  | .holdDisposed _ | .holdSettled _ => false
  | _ => true

/-- Counts the outcome of one hold; a failed re-evaluation leaves it held. -/
def Sweep.count (sweep : Sweep) (rest : List ClaimHold) (freshByFeed : OrdMap String DecisionEvent)
    (outcome : Except JsError ReevaluateOutcome) : Sweep :=
  let sweep := { sweep with remaining := rest, freshByFeed }
  match outcome with
  | .ok .released => { sweep with released := sweep.released + 1 }
  | .ok .escalated => { sweep with escalated := sweep.escalated + 1 }
  | .ok .stillHeld | .error _ => { sweep with stillHeld := sweep.stillHeld + 1 }

/-- The hold ids granted after a call of the gate. -/
def grant (granted : List String) : GateResult → List String
  | .proceed (some holdId) => granted ++ [holdId]
  | _ => granted

/-- A step of the service between two calls of `reevaluateAll`. -/
def idleStep (s : HoldState) : HoldLabel → Option HoldState
  | .gate candidate governed answer =>
    let (store, result) := gate env s.store candidate governed answer
    some { s with store, granted := grant s.granted result }
  | .startSweep =>
    some { s with
      sweep := some ⟨listHolds s.store.events (some .payoutHeld), OrdMap.empty, 0, 0, 0⟩ }
  | .sweepNext _ => none
  | .dispose holdId disposition actor note extendMs =>
    some { s with store := (dispose env s.store holdId disposition actor note extendMs).1 }
  | .markSettled holdId => some { s with store := (markSettled env s.store holdId).1 }
  | .record event =>
    if event.body.isForeign then some { s with store := s.store.appendEvent env event } else none
  | .setPayloads payloads => some { s with store := { s.store with payloads } }

/-- A step of `reevaluateAll`: its next hold, or its end. -/
def sweepStep (s : HoldState) (sweep : Sweep) (answer : Except JsError DecideAnswer) : HoldState :=
  match sweep.remaining with
  | [] => { s with sweep := none }
  | hold :: rest =>
    let (store, freshByFeed, outcome) := reevaluate env s.store hold sweep.freshByFeed answer
    { s with store, sweep := some (sweep.count rest freshByFeed outcome) }

/-- One step of the system; `none` when the label does not fit the state. -/
def holdStep (s : HoldState) (l : HoldLabel) : Option HoldState :=
  match s.sweep with
  | none => idleStep env s l
  | some sweep =>
    match l with
    | .sweepNext answer => some (sweepStep env s sweep answer)
    | _ => none

/-- Steps as a relation. -/
def HoldSteps (s : HoldState) (l : HoldLabel) (s' : HoldState) : Prop :=
  holdStep env s l = some s'

end Refract.Consensus
