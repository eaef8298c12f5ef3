import Refract.Lib.OrdMap
import Refract.Lib.Runs
import Refract.Lib.Tables

/-!
# Operator staking and slashing

`StakingService` of `staking.ts`: bonds, unbonding lots, withdrawals, and slashing proposals from
their creation to their execution. Each operation is one database transaction, which locks the
operator's bond row where it reads or moves stake; here it is a function from the database to the
database or to the rejection that rolls it back. Amounts are integers in base units, times are
seconds on the database clock, which every transaction reads once (`now`).

Ids that the database generates, and the order in which it returns rows that its `ORDER BY` leaves
open, are part of the call.
-/

namespace Refract.Services

open Lib

/-! ## Policy and amounts -/

inductive SlashReason where
  | outsideTolerance
  | postQuarantine
  | equivocation

def SlashReason.text : SlashReason → String
  | .outsideTolerance => "outside_tolerance"
  | .postQuarantine => "post_quarantine"
  | .equivocation => "equivocation"

/-- Bounded auto-slash: reasons up to `maxBps` are proposed with an appeal window. -/
structure AutoSlashPolicy where
  enabled : Bool
  maxBps : Nat
  appealWindowSeconds : Nat

structure StakingPolicy where
  unbondingPeriodSeconds : Nat
  slashBps : SlashReason → Nat
  autoSlash : AutoSlashPolicy

/-- The policy of an empty environment. -/
def defaultStakingPolicy : StakingPolicy where
  unbondingPeriodSeconds := 14 * 86400
  slashBps
    | .outsideTolerance => 500
    | .postQuarantine => 1000
    | .equivocation => 2500
  autoSlash := ⟨false, 500, 3 * 86400⟩

def bpsDenominator : Int := 10000

/-- Slash amount for a stake at risk, rounded down and capped at the stake. -/
def slashAmountFor (atStake : Int) (bps : Nat) : Int :=
  if atStake ≤ 0 ∨ bps = 0 then 0
  else min ((atStake * bps).tdiv bpsDenominator) atStake

/-- The number of a string of decimal digits. -/
def digitsValue (digits : List Char) : Nat :=
  digits.foldl (fun n c => 10 * n + (c.toNat - '0'.toNat)) 0

/-- A positive integer string, without a leading zero. -/
def parseAmount (value : JsValue) (field : String) : Except Rejection Int :=
  match value.string?.map String.toList with
  | some (first :: rest) =>
    if first.isDigit ∧ first ≠ '0' ∧ rest.all Char.isDigit then
      .ok (digitsValue (first :: rest))
    else .error (.badRequest (field ++ " must be a positive integer string in base units"))
  | _ => .error (.badRequest (field ++ " must be a positive integer string in base units"))

/-! ## The tables -/

/-- A row of `operator_bonds`. -/
structure Bond where
  bondedAmount : Int
  firstBondedAt : Option ℚ

inductive UnbondStatus where
  | unbonding
  | withdrawn
  | slashed
  deriving DecidableEq, Repr

/-- A row of `unbond_requests`: an unbonding lot. -/
structure UnbondRequest where
  id : String
  operatorId : String
  amount : Int
  status : UnbondStatus
  requestedAt : ℚ
  availableAt : ℚ
  withdrawnAt : Option ℚ
  deriving DecidableEq, Repr

inductive ProposalStatus where
  | pendingReview
  | pendingAppeal
  | approved
  | rejected
  | executed
  deriving DecidableEq, Repr

/-- The statuses that block a withdrawal. -/
def ProposalStatus.isOpen : ProposalStatus → Bool
  | .pendingReview | .pendingAppeal | .approved => true
  | .rejected | .executed => false

/-- A row of `slashing_proposals`. -/
structure SlashingProposal where
  id : String
  operatorId : String
  reason : SlashReason
  evidenceIds : List String
  evidenceKey : String
  amount : Int
  status : ProposalStatus
  appealUntil : Option ℚ
  reviewedBy : Option String
  executionTxHash : Option String

structure StakingDb where
  bonds : OrdMap String Bond
  requests : List UnbondRequest
  proposals : List SlashingProposal

def StakingDb.empty : StakingDb := ⟨OrdMap.empty, [], []⟩

/-- The lot of an operator is still unbonding. -/
def UnbondRequest.isUnbondingOf (operatorId : String) (r : UnbondRequest) : Bool :=
  decide (r.operatorId = operatorId ∧ r.status = .unbonding)

variable (db : StakingDb)

/-- The bond row, which is locked until the transaction ends. -/
def lockBond (operatorId : String) : Except Rejection Bond :=
  match db.bonds.get? operatorId with
  | some bond => .ok bond
  | none => .error (.notFound "operator has no bond")

/-- The stake at risk: bonded stake and unbonding lots. -/
def atStake (operatorId : String) (bonded : Int) : Int :=
  bonded + sumWhere (·.isUnbondingOf operatorId) (·.amount) db.requests

/-! ## Bonding, unbonding, withdrawing -/

/-- Records a confirmed bond; a top-up keeps the time of the first bond. -/
def recordBond (operatorId : String) (amountInput : JsValue) (now : ℚ) :
    Except Rejection (StakingDb × Int) := do
  let amount ← parseAmount amountInput "amount"
  let bond := match db.bonds.get? operatorId with
    | none => ⟨amount, some now⟩
    | some bond => ⟨bond.bondedAmount + amount, some (bond.firstBondedAt.getD now)⟩
  .ok ({ db with bonds := db.bonds.set operatorId bond }, amount)

/-- Moves bonded stake into an unbonding lot. -/
def requestUnbond (policy : StakingPolicy) (db : StakingDb) (operatorId : String)
    (amountInput : JsValue) (now : ℚ) (id : String) :
    Except Rejection (StakingDb × UnbondRequest) := do
  let amount ← parseAmount amountInput "amount"
  let bond ← lockBond db operatorId
  if bond.bondedAmount < amount then .error (.conflict "unbond amount exceeds bonded stake")
  else
    let request : UnbondRequest :=
      { id, operatorId, amount, status := .unbonding, requestedAt := now,
        availableAt := now + policy.unbondingPeriodSeconds, withdrawnAt := none }
    .ok ({ db with
      bonds := db.bonds.set operatorId { bond with bondedAmount := bond.bondedAmount - amount }
      requests := db.requests ++ [request] }, request)

/-- A lot that a withdrawal releases. -/
def UnbondRequest.isReleased (operatorId : String) (now : ℚ) (r : UnbondRequest) : Bool :=
  r.isUnbondingOf operatorId && decide (r.availableAt ≤ now)

/-- Releases the lots whose period has elapsed, unless a slashing proposal is open. -/
def withdraw (operatorId : String) (now : ℚ) : Except Rejection (StakingDb × Int) := do
  let _ ← lockBond db operatorId
  if db.proposals.any fun p => decide (p.operatorId = operatorId) && p.status.isOpen then
    .error (.conflict "withdrawal blocked by an open slashing proposal")
  else
    .ok ({ db with
        requests := updateWhere (·.isReleased operatorId now)
          (fun r => { r with status := .withdrawn, withdrawnAt := some now }) db.requests },
      sumWhere (·.isReleased operatorId now) (·.amount) db.requests)

/-! ## Proposals -/

structure SlashableFinding where
  reason : SlashReason
  evidenceIds : List String

def evidenceKey (finding : SlashableFinding) : String :=
  finding.reason.text ++ ":" ++ String.intercalate "|" finding.evidenceIds

/-- Opens a proposal for an evidence set, unless there is one already. -/
def createProposal (policy : StakingPolicy) (db : StakingDb) (operatorId : String)
    (finding : SlashableFinding) (now : ℚ) (id : String) :
    Except Rejection (StakingDb × Option SlashingProposal) :=
  let bps := policy.slashBps finding.reason
  match db.bonds.get? operatorId with
  | none => .ok (db, none)
  | some bond =>
    match db.proposals.find? fun p => p.evidenceKey = evidenceKey finding with
    | some existing => .ok (db, some existing)
    | none =>
      let amount := slashAmountFor (atStake db operatorId bond.bondedAmount) bps
      if amount = 0 then .ok (db, none)
      else
        let autoEligible := policy.autoSlash.enabled ∧ bps ≤ policy.autoSlash.maxBps
        let proposal : SlashingProposal :=
          { id, operatorId, reason := finding.reason, evidenceIds := finding.evidenceIds,
            evidenceKey := evidenceKey finding, amount,
            status := if autoEligible then .pendingAppeal else .pendingReview
            appealUntil := if autoEligible then some (now + policy.autoSlash.appealWindowSeconds)
              else none
            reviewedBy := none, executionTxHash := none }
        .ok ({ db with proposals := db.proposals ++ [proposal] }, some proposal)

/-- A guarded change of status: the rows that qualify, or a conflict if there is none. -/
def moveProposal (proposalId : String) (allowed : SlashingProposal → Bool)
    (change : SlashingProposal → SlashingProposal) :
    Except Rejection (StakingDb × SlashingProposal) :=
  match db.proposals.find? fun p => decide (p.id = proposalId) && allowed p with
  | none => .error (.conflict ("slashing proposal " ++ proposalId ++
      " is not in a state that allows this action"))
  | some p =>
    .ok ({ db with
      proposals := updateWhere (fun p => decide (p.id = proposalId) && allowed p) change
        db.proposals }, change p)

/-- Approves a proposal; an auto-slash proposal only after its appeal window. -/
def approveProposal (proposalId reviewer : String) (now : ℚ) :
    Except Rejection (StakingDb × SlashingProposal) :=
  moveProposal db proposalId
    (fun p => decide (p.status = .pendingReview) ||
      (decide (p.status = .pendingAppeal) && p.appealUntil.any (decide <| · ≤ now)))
    fun p => { p with status := .approved, reviewedBy := some reviewer }

def rejectProposal (proposalId reviewer : String) :
    Except Rejection (StakingDb × SlashingProposal) :=
  moveProposal db proposalId
    (fun p => decide (p.status = .pendingReview) || decide (p.status = .pendingAppeal))
    fun p => { p with status := .rejected, reviewedBy := some reviewer }

/-- Moves an auto-slash proposal back to review while its appeal window is open. -/
def appealProposal (proposalId : String) (now : ℚ) :
    Except Rejection (StakingDb × SlashingProposal) :=
  moveProposal db proposalId
    (fun p => decide (p.status = .pendingAppeal) && p.appealUntil.any (decide <| now < ·))
    fun p => { p with status := .pendingReview, appealUntil := none }

/-! ## Executing a slash -/

/-- The loop of `allocateSlash` over the lots. -/
def takeFromLots : Int → List UnbondRequest → OrdMap String Int → Int × OrdMap String Int
  | remaining, [], taken => (remaining, taken)
  | remaining, lot :: rest, taken =>
    if remaining = 0 then (remaining, taken)
    else
      let take := min lot.amount remaining
      takeFromLots (remaining - take) rest (if 0 < take then taken.set lot.id take else taken)

/-- Splits a slash across bonded stake first, then unbonding lots in order. -/
def allocateSlash (bonded : Int) (lots : List UnbondRequest) (amount : Int) :
    Except Rejection (Int × OrdMap String Int) :=
  let fromBonded := min bonded amount
  let (remaining, fromUnbonding) := takeFromLots (amount - fromBonded) lots OrdMap.empty
  if remaining = 0 then .ok (fromBonded, fromUnbonding)
  else .error (.failed "slash amount exceeds stake at risk")

/-- The update of one lot that is slashed. -/
def slashLot (fromUnbonding : OrdMap String Int) (requests : List UnbondRequest)
    (lot : UnbondRequest) : List UnbondRequest :=
  match fromUnbonding.get? lot.id with
  | none => requests
  | some take =>
    updateWhere (fun r => decide (r.id = lot.id))
      (fun r => { r with
        amount := lot.amount - take
        status := if lot.amount - take = 0 then .slashed else r.status }) requests

/-- Records an approved slash as executed, capped at the stake at risk. `lots` are the unbonding
lots of the operator as the database returns them, in request order. -/
def executeProposal (proposalId txHash : String) (lots : List UnbondRequest) :
    Except Rejection (StakingDb × SlashingProposal × Int) := do
  if isBlank txHash then .error (.badRequest "txHash is required")
  else
    match db.proposals.find? fun p => p.id = proposalId with
    | none => .error (.notFound "slashing proposal not found")
    | some proposal =>
      if proposal.status ≠ .approved then
        .error (.conflict "only approved proposals can be executed")
      else
        let bond ← lockBond db proposal.operatorId
        let atStake := bond.bondedAmount + (lots.map (·.amount)).sum
        let slash := min proposal.amount atStake
        let (fromBonded, fromUnbonding) ← allocateSlash bond.bondedAmount lots slash
        let executed := { proposal with status := .executed, executionTxHash := some txHash }
        .ok ({ bonds := db.bonds.set proposal.operatorId
                { bond with bondedAmount := bond.bondedAmount - fromBonded }
               requests := lots.foldl (slashLot fromUnbonding) db.requests
               proposals := updateWhere (fun p => decide (p.id = proposalId))
                (fun p => { p with status := .executed, executionTxHash := some txHash })
                db.proposals }, executed, slash)

/-! ## Runs -/

/-- A call of one of the operations, with what the database adds to it. -/
inductive StakingCall where
  | recordBond (operatorId : String) (amount : JsValue) (now : ℚ)
  | requestUnbond (operatorId : String) (amount : JsValue) (now : ℚ) (id : String)
  | withdraw (operatorId : String) (now : ℚ)
  | createProposal (operatorId : String) (finding : SlashableFinding) (now : ℚ) (id : String)
  | approveProposal (proposalId reviewer : String) (now : ℚ)
  | rejectProposal (proposalId reviewer : String)
  | appealProposal (proposalId : String) (now : ℚ)
  | executeProposal (proposalId txHash : String) (lots : List UnbondRequest)

/-- What moved stake into the system, or out of it by a slash. -/
inductive StakingEvent where
  | bonded (operatorId : String) (amount : Int)
  | slashed (operatorId proposalId : String) (amount : Int)

/-- The database, and what has happened. -/
structure StakingState where
  db : StakingDb
  trace : List StakingEvent

def StakingState.start : StakingState := ⟨StakingDb.empty, []⟩

/-- The rows that `SELECT … WHERE … ORDER BY requested_at` may return. -/
def StakingDb.SelectsLots (operatorId : String) (lots : List UnbondRequest) : Prop :=
  lots.Perm (db.requests.filter (·.isUnbondingOf operatorId)) ∧
    lots.Pairwise fun a b => a.requestedAt ≤ b.requestedAt

instance (db : StakingDb) (operatorId : String) (lots : List UnbondRequest) :
    Decidable (db.SelectsLots operatorId lots) :=
  inferInstanceAs (Decidable (_ ∧ _))

/-- What the database adds to a call is something it can add: a new id is not taken, and the lots
of an execution are those of the proposal's operator, in order. -/
def StakingDb.Allows : StakingCall → Prop
  | .requestUnbond _ _ _ id => ∀ r ∈ db.requests, r.id ≠ id
  | .createProposal _ _ _ id => ∀ p ∈ db.proposals, p.id ≠ id
  | .executeProposal proposalId _ lots =>
    ∀ p ∈ db.proposals, p.id = proposalId → db.SelectsLots p.operatorId lots
  | _ => True

instance (db : StakingDb) (call : StakingCall) : Decidable (db.Allows call) := by
  unfold StakingDb.Allows
  split <;> infer_instance

/-- The effect of one call; a rejected one is rolled back. -/
def StakingState.perform (policy : StakingPolicy) (s : StakingState) : StakingCall → StakingState
  | .recordBond operatorId amount now =>
    match recordBond s.db operatorId amount now with
    | .ok (db, bonded) => ⟨db, s.trace ++ [.bonded operatorId bonded]⟩
    | .error _ => s
  | .requestUnbond operatorId amount now id =>
    { s with db := commit s.db (requestUnbond policy s.db operatorId amount now id) }
  | .withdraw operatorId now => { s with db := commit s.db (withdraw s.db operatorId now) }
  | .createProposal operatorId finding now id =>
    { s with db := commit s.db (createProposal policy s.db operatorId finding now id) }
  | .approveProposal proposalId reviewer now =>
    { s with db := commit s.db (approveProposal s.db proposalId reviewer now) }
  | .rejectProposal proposalId reviewer =>
    { s with db := commit s.db (rejectProposal s.db proposalId reviewer) }
  | .appealProposal proposalId now =>
    { s with db := commit s.db (appealProposal s.db proposalId now) }
  | .executeProposal proposalId txHash lots =>
    match executeProposal s.db proposalId txHash lots with
    | .ok (db, proposal, slash) =>
      ⟨db, s.trace ++ [.slashed proposal.operatorId proposalId slash]⟩
    | .error _ => s

/-- One call of the service. -/
def stakingStep (policy : StakingPolicy) (s : StakingState) (call : StakingCall) :
    Option StakingState :=
  if s.db.Allows call then some (s.perform policy call) else none

end Refract.Services
