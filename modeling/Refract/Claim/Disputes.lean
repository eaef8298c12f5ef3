import Refract.Claim.SettlementRepository

/-!
# Bonded disputes

`DisputeService` of `dispute.service.ts` over the tables of `007_claim_disputes.sql`: a confirmed
settlement is challenged inside a window, the dispute moves to a resolution, and a reversal books
what is owed without touching the payout. `open` and `transition` are one transaction each; the
constraints of the tables hold of what a statement leaves behind, or the transaction is rolled back.

Dispute ids are UUIDs in the database's own spelling; the database generates them, so the id is part
of the call. Publishing the event and refreshing the gauge, which happen after the commit, are left
out.
-/

namespace Refract.Claim

open Lib

/-! ## Statuses -/

inductive DisputeStatus where
  | open
  | underReview
  | upheld
  | reversed
  | withdrawn
  deriving DecidableEq, Repr

def DisputeStatus.text : DisputeStatus → String
  | .open => "open"
  | .underReview => "under_review"
  | .upheld => "upheld"
  | .reversed => "reversed"
  | .withdrawn => "withdrawn"

inductive BondStatus where
  | posted
  | forfeited
  | returned
  deriving DecidableEq, Repr

/-- Allowed moves. Upheld, reversed and withdrawn are final. -/
def transitions : DisputeStatus → List DisputeStatus
  | .open => [.underReview, .withdrawn]
  | .underReview => [.upheld, .reversed, .withdrawn]
  | .upheld | .reversed | .withdrawn => []

def bondOnResolution : DisputeStatus → Option BondStatus
  | .upheld => some .forfeited
  | .reversed | .withdrawn => some .returned
  | .open | .underReview => none

def ClaimSettlementStatus.text : ClaimSettlementStatus → String
  | .pending => "pending"
  | .submitted => "submitted"
  | .confirmed => "confirmed"
  | .failed => "failed"

/-! ## The tables -/

/-- A row of `claim_disputes`. -/
structure Dispute where
  id : String
  decisionId : String
  policyId : String
  status : DisputeStatus
  reason : String
  bondReference : String
  bondStatus : BondStatus
  openedBy : String
  windowClosesAt : ℚ
  resolutionNote : Option String
  replacementDecisionId : Option String
  createdAt : ℚ
  resolvedAt : Option ℚ
  deriving DecidableEq

inductive ReversalStatus where
  | owed
  | reconciled
  deriving DecidableEq, Repr

/-- A row of `settlement_reversals`. -/
structure Reversal where
  disputeId : String
  decisionId : String
  policyId : String
  amount : ℚ
  status : ReversalStatus
  deriving DecidableEq

structure DisputeDb where
  settlement : SettlementDb
  disputes : List Dispute
  reversals : List Reversal

/-- The rows of the partial unique index on the decision. -/
def Dispute.isLive (d : Dispute) : Bool := d.status ≠ .withdrawn

/-- The checks on one row. -/
def Dispute.Valid (d : Dispute) : Prop :=
  1 ≤ d.reason.toList.length ∧ d.reason.toList.length ≤ 2000 ∧
    d.replacementDecisionId ≠ some d.decisionId

instance (d : Dispute) : Decidable d.Valid := inferInstanceAs (Decidable (_ ∧ _ ∧ _))

/-- The constraints of `claim_disputes`. -/
structure DisputesValid (disputes : List Dispute) : Prop where
  ids : UniqueKey (·.id) disputes
  live : UniqueWhere Dispute.isLive (·.decisionId) disputes
  replacements : UniqueWhere (·.replacementDecisionId.isSome) (·.replacementDecisionId) disputes

instance (disputes : List Dispute) : Decidable (DisputesValid disputes) :=
  decidable_of_iff (UniqueKey (·.id) disputes ∧ UniqueWhere Dispute.isLive (·.decisionId) disputes ∧
      UniqueWhere (·.replacementDecisionId.isSome) (·.replacementDecisionId) disputes)
    ⟨fun h => ⟨h.1, h.2.1, h.2.2⟩, fun h => ⟨h.ids, h.live, h.replacements⟩⟩

/-- Writes `claim_disputes`. -/
def writeDisputes (disputes : List Dispute) : Except SqlState (List Dispute) := do
  enforce (∀ d ∈ disputes, d.Valid) .checkViolation
  enforce (DisputesValid disputes) .uniqueViolation
  .ok disputes

/-- Writes `settlement_reversals`, one row per dispute and per decision. -/
def writeReversals (reversals : List Reversal) : Except SqlState (List Reversal) := do
  enforce (∀ v ∈ reversals, 0 < v.amount) .checkViolation
  enforce (UniqueKey (·.disputeId) reversals ∧ UniqueKey (·.decisionId) reversals) .uniqueViolation
  .ok reversals

/-! ## Opening a dispute -/

def defaultWindowHours : ℚ := 72

/-- The window of a coverage type, in hours. -/
def windowHoursFor (windows : OrdMap String ℚ) (coverageType : String) : ℚ :=
  ((windows.get? coverageType).or (windows.get? "default")).getD defaultWindowHours

structure OpenDisputeInput where
  decisionId : String
  reason : String
  bondReference : String
  actor : String

/-- The settlement of a decision with the coverage type of its policy. -/
def settlementOf (db : SettlementDb) (decisionId : String) : Option (Settlement × String) :=
  (findByDecisionId db decisionId).bind fun settlement =>
    (db.policies.get? settlement.policyId).map fun coverageType => (settlement, coverageType)

/-- Challenges a confirmed settlement inside its window. -/
def openDispute (windows : OrdMap String ℚ) (db : DisputeDb) (input : OpenDisputeInput) (now : ℚ)
    (id : String) : Except Rejection (DisputeDb × String) :=
  match settlementOf db.settlement input.decisionId with
  | none => .error (.notFound ("Unknown decision " ++ input.decisionId))
  | some (settlement, coverageType) =>
    match settlement.status with
    | .pending | .submitted =>
      .error (.conflict ("Settlement for " ++ input.decisionId ++
        " is in flight; retry after reconciliation"))
    | .failed =>
      .error (.conflict ("Decision " ++ input.decisionId ++ " did not pay out (settlement " ++
        settlement.status.text ++ ")"))
    | .confirmed =>
      let windowSeconds := windowHoursFor windows coverageType * 3600
      if settlement.createdAt + windowSeconds ≤ now then
        .error (.conflict ("Challenge window for " ++ input.decisionId ++ " has closed"))
      else do
        let dispute : Dispute :=
          { id, decisionId := input.decisionId, policyId := settlement.policyId,
            status := .open, reason := input.reason, bondReference := input.bondReference,
            bondStatus := .posted, openedBy := input.actor,
            windowClosesAt := settlement.createdAt + windowSeconds, resolutionNote := none,
            replacementDecisionId := none, createdAt := now, resolvedAt := none }
        let disputes ← onViolation
          ("Decision " ++ input.decisionId ++ " already has a live dispute or is final")
          (writeDisputes (db.disputes ++ [dispute]))
        .ok ({ db with disputes }, id)

/-! ## Moving a dispute -/

structure TransitionDisputeInput where
  target : DisputeStatus
  note : Option String
  replacementDecisionId : Option String

/-- `/^[0-9a-f]{8}-[0-9a-f]{4}-[0-9a-f]{4}-[0-9a-f]{4}-[0-9a-f]{12}$/i`. -/
def isUuid (id : String) : Bool :=
  decide (id.toList.length = 36) && id.toList.zipIdx.all fun (c, i) =>
    if i = 8 ∨ i = 13 ∨ i = 18 ∨ i = 23 then c = '-'
    else ('0' ≤ c && c ≤ '9') || ('a' ≤ c && c ≤ 'f') || ('A' ≤ c && c ≤ 'F')

/-- How the database spells a UUID. -/
def uuidValue (id : String) : String := String.ofList (id.toList.map Char.toLower)

/-- The dispute with its settlement. -/
def disputeOf (db : DisputeDb) (id : String) : Option (Dispute × Settlement) :=
  (db.disputes.find? fun d => d.id = uuidValue id).bind fun dispute =>
    (findByDecisionId db.settlement dispute.decisionId).map fun settlement => (dispute, settlement)

/-- The columns that a move sets. -/
def Dispute.moveTo (input : TransitionDisputeInput) (now : ℚ) (d : Dispute) : Dispute :=
  { d with
    status := input.target
    resolutionNote := input.note.or d.resolutionNote
    replacementDecisionId :=
      (if input.target = .reversed then input.replacementDecisionId.map trim else none).or
        d.replacementDecisionId
    bondStatus := (bondOnResolution input.target).getD d.bondStatus
    resolvedAt := if input.target ≠ .underReview then some now else d.resolvedAt }

/-- The reversals after the first part of a move: one is booked when the decision is reversed. -/
def bookReversal (db : DisputeDb) (dispute : Dispute) (settlement : Settlement)
    (input : TransitionDisputeInput) : Except Rejection (List Reversal) :=
  if input.target ≠ .reversed then .ok db.reversals
  else if (input.replacementDecisionId.map trim).getD "" = "" then
    .error (.badRequest "replacementDecisionId is required to reverse a decision")
  else if settlement.status ≠ .confirmed then
    .error (.conflict ("Settlement for " ++ dispute.decisionId ++ " is " ++
      settlement.status.text ++ "; cannot reverse"))
  else
    onViolation "Decision already reversed or replacement decision already in use"
      (writeReversals (db.reversals ++
        [{ disputeId := dispute.id, decisionId := dispute.decisionId, policyId := dispute.policyId,
           amount := settlement.amount, status := .owed }]))

/-- Moves a dispute; the original payout stays confirmed. -/
def transition (db : DisputeDb) (id : String) (input : TransitionDisputeInput) (now : ℚ) :
    Except Rejection (DisputeDb × Unit) :=
  if isUuid id = false then .error (.notFound ("Unknown dispute " ++ id))
  else
    match disputeOf db id with
    | none => .error (.notFound ("Unknown dispute " ++ id))
    | some (dispute, settlement) =>
      if input.target ∉ transitions dispute.status then
        .error (.conflict ("Cannot move dispute from " ++ dispute.status.text ++ " to " ++
          input.target.text))
      else do
        let reversals ← bookReversal db dispute settlement input
        let qualifies (d : Dispute) : Bool :=
          decide (d.id = dispute.id) && decide (d.status = dispute.status)
        let disputes ← onViolation
          "Decision already reversed or replacement decision already in use"
          (writeDisputes (updateWhere qualifies (·.moveTo input now) db.disputes))
        if (db.disputes.filter qualifies).length = 0 then
          .error (.conflict ("Dispute " ++ id ++ " changed concurrently; retry"))
        else .ok ({ db with disputes, reversals }, ())

/-! ## Runs -/

/-- A transaction of the dispute service or of the settlement repository. -/
inductive DisputeCall where
  | openDispute (input : OpenDisputeInput) (now : ℚ) (id : String)
  | transition (id : String) (input : TransitionDisputeInput) (now : ℚ)
  | settlement (call : SettlementCall)

/-- No settlement and no dispute yet. -/
def DisputeDb.start (policies : OrdMap String String) (claims : List ClaimRow) : DisputeDb :=
  ⟨⟨policies, [], claims⟩, [], []⟩

def disputeStep (numeric : String → Option ℚ) (windows : OrdMap String ℚ) (db : DisputeDb) :
    DisputeCall → DisputeDb
  | .openDispute input now id => commit db (openDispute windows db input now id)
  | .transition id input now => commit db (transition db id input now)
  | .settlement call =>
    { db with settlement := (settlementStep numeric ⟨db.settlement, []⟩ call).db }

end Refract.Claim
