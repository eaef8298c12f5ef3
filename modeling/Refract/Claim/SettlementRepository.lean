import Refract.Lib.OrdMap
import Refract.Lib.Runs
import Refract.Lib.Tables

/-!
# The settlement repository

`ClaimSettlementRepository` of `claim-settlement.repository.ts` over the table `claim_settlements`
of `004_claim_settlement_decisions.sql`. Each operation is one SQL statement or one transaction, so
it is a function from the database to the database or to the error that rolls it back; a run is any
sequence of operations, whichever processes they come from.

The database reads the text of an amount as `NUMERIC(38, 18)`; that reading is the parameter
`numeric`. Policy ids are UUIDs in the database's own spelling. Times are seconds on the database
clock.
-/

namespace Refract.Claim

open Lib List

/-! ## Decision ids -/

/-- Stable identifier for one consensus decision: feed, policy and observation window. -/
def buildDecisionId (host : Host) (sha : String → String) (feed policyId : String)
    (windowStart : JsNumber) : String :=
  sha (feed ++ "|" ++ policyId ++ "|" ++ host.showNumber windowStart)

/-- A decision id determines the policy it was built for. -/
theorem buildDecisionId_policy {host : Host} {sha : String → String}
    (hsha : Function.Injective sha) (hnum : ∀ n, '|' ∉ (host.showNumber n).toList)
    {feed feed' policyId policyId' : String} {windowStart windowStart' : JsNumber}
    (hpol : '|' ∉ policyId.toList) (hpol' : '|' ∉ policyId'.toList)
    (h : buildDecisionId host sha feed policyId windowStart =
      buildDecisionId host sha feed' policyId' windowStart') : policyId = policyId' := by
  have htext := congrArg String.toList (hsha h)
  simp only [String.toList_append] at htext
  have hsep : "|".toList = ['|'] := rfl
  rw [hsep, append_assoc (feed.toList ++ _ ++ _), append_assoc (feed'.toList ++ _ ++ _),
    singleton_append, singleton_append] at htext
  -- The window is what follows the last separator, the policy what follows the one before.
  have hcut := (append_separator_inj (hnum _) (hnum _) htext).1
  rw [append_assoc, append_assoc, singleton_append, singleton_append] at hcut
  exact String.toList_inj.1 (append_separator_inj hpol hpol' hcut).2

/-! ## The tables -/

inductive ClaimSettlementStatus where
  | pending
  | submitted
  | confirmed
  | failed
  deriving DecidableEq, Repr

/-- A row of `claim_settlements`. -/
structure Settlement where
  decisionId : String
  policyId : String
  amount : ℚ
  status : ClaimSettlementStatus
  txHash : Option String
  evidence : String
  lastError : Option String
  createdAt : ℚ
  deriving DecidableEq

/-- The rows of the partial unique index on the policy. -/
def Settlement.isOpen (r : Settlement) : Bool :=
  match r.status with
  | .pending | .submitted | .confirmed => true
  | .failed => false

/-- A row of `claims`, as far as a confirmation changes it. -/
structure ClaimRow where
  policyId : String
  status : String
  processedAt : Option ℚ
  settledAt : Option ℚ

/-- The tables. `policies` gives the coverage type of each policy. -/
structure SettlementDb where
  policies : OrdMap String String
  settlements : List Settlement
  claims : List ClaimRow

variable (db : SettlementDb)

def findByDecisionId (decisionId : String) : Option Settlement :=
  db.settlements.find? fun r => r.decisionId = decisionId

/-! ## Taking ownership -/

/-- A failed row is claimed again; its policy and its time of creation stay. -/
def Settlement.reclaimed (amount : ℚ) (evidence : String) (r : Settlement) : Settlement :=
  { r with status := .pending, amount, evidence, lastError := none }

/-- `INSERT … ON CONFLICT (decision_id) DO UPDATE … WHERE status = 'failed' RETURNING decision_id`,
and whether it returned a row. -/
def upsertSettlement (numeric : String → Option ℚ) (db : SettlementDb)
    (decisionId policyId amount evidence : String) (now : ℚ) :
    Except SqlState (SettlementDb × Bool) :=
  match numeric amount with
  | none => .error .invalidValue
  | some amount => do
      -- The proposed row is checked before the conflict is looked for.
      enforce (0 < amount) .checkViolation
      match findByDecisionId db decisionId with
      | none =>
        let settlements := db.settlements ++
          [{ decisionId, policyId, amount, status := .pending, txHash := none, evidence,
             lastError := none, createdAt := now }]
        enforce (UniqueWhere Settlement.isOpen (·.policyId) settlements) .uniqueViolation
        enforce ((db.policies.get? policyId).isSome = true) .foreignKeyViolation
        .ok ({ db with settlements }, true)
      | some existing =>
        if existing.status = .failed then
          let settlements := updateWhere (fun r => decide (r.decisionId = decisionId))
            (·.reclaimed amount evidence) db.settlements
          enforce (UniqueWhere Settlement.isOpen (·.policyId) settlements) .uniqueViolation
          .ok ({ db with settlements }, true)
        else .ok (db, false)

/-- Takes ownership of a decision for settlement. A violated index means that another decision for
the same policy holds an open settlement. -/
def claim (numeric : String → Option ℚ) (db : SettlementDb)
    (decisionId policyId amount evidence : String) (now : ℚ) :
    Except SqlState (SettlementDb × Bool) :=
  match upsertSettlement numeric db decisionId policyId amount evidence now with
  | .error .uniqueViolation => .ok (db, false)
  | result => result

/-! ## Status changes -/

/-- A guarded update of the row of a decision, and the number of rows it changed. -/
def moveSettlement (decisionId : String) (source : ClaimSettlementStatus → Bool)
    (change : Settlement → Settlement) : SettlementDb × Nat :=
  let qualifies (r : Settlement) : Bool := decide (r.decisionId = decisionId) && source r.status
  ({ db with settlements := updateWhere qualifies change db.settlements },
    (db.settlements.filter qualifies).length)

/-- Records the transaction hash before broadcast. -/
def markSubmitted (decisionId txHash : String) : Except SqlState (SettlementDb × Nat) := do
  let txHash ← varchar 64 txHash
  .ok (moveSettlement db decisionId (· = .pending)
    fun r => { r with status := .submitted, txHash := some txHash })

/-- Confirms a settlement and settles the claims of the policy in one transaction. -/
def markConfirmed (decisionId policyId txHash : String) (now : ℚ) : Except Rejection SettlementDb :=
  match varchar 64 txHash with
  | .error e => .error (.database e)
  | .ok txHash =>
    let (db, rowCount) := moveSettlement db decisionId
      (fun status => status = .pending || status = .submitted)
      fun r => { r with status := .confirmed, txHash := some txHash }
    if rowCount = 0 then
      .error (.failed ("Settlement " ++ decisionId ++ " is not open; refusing to confirm"))
    else
      .ok { db with
        claims := updateWhere (fun c => c.policyId = policyId && c.status != "settled")
          (fun c => { c with status := "settled", processedAt := some now, settledAt := some now })
          db.claims }

/-- Only for a definitive on-chain rejection. -/
def markFailed (decisionId error : String) : SettlementDb × Nat :=
  moveSettlement db decisionId (· = .pending)
    fun r => { r with status := .failed, lastError := some error }

/-! ## Runs -/

inductive SettlementCall where
  | claim (decisionId policyId amount evidence : String) (now : ℚ)
  | markSubmitted (decisionId txHash : String)
  | markConfirmed (decisionId policyId txHash : String) (now : ℚ)
  | markFailed (decisionId error : String)

/-- What callers were told, and what became of settlements. -/
inductive SettlementEvent where
  | claimed (decisionId policyId : String)
  | confirmed (decisionId : String)
  | failed (decisionId : String)
  deriving DecidableEq, Repr

structure SettlementState where
  db : SettlementDb
  trace : List SettlementEvent

/-- No settlement yet. -/
def SettlementState.start (policies : OrdMap String String) (claims : List ClaimRow) :
    SettlementState :=
  ⟨⟨policies, [], claims⟩, []⟩

/-- One call. A claim that returns true, a confirmation, and a failure that changed a row are noted.
-/
def settlementStep (numeric : String → Option ℚ) (s : SettlementState) :
    SettlementCall → SettlementState
  | .claim decisionId policyId amount evidence now =>
    match claim numeric s.db decisionId policyId amount evidence now with
    | .ok (db, true) => ⟨db, s.trace ++ [.claimed decisionId policyId]⟩
    | .ok (db, false) => ⟨db, s.trace⟩
    | .error _ => s
  | .markSubmitted decisionId txHash =>
    ⟨commit s.db (markSubmitted s.db decisionId txHash), s.trace⟩
  | .markConfirmed decisionId policyId txHash now =>
    match markConfirmed s.db decisionId policyId txHash now with
    | .ok db => ⟨db, s.trace ++ [.confirmed decisionId]⟩
    | .error _ => s
  | .markFailed decisionId error =>
    match markFailed s.db decisionId error with
    | (db, 0) => ⟨db, s.trace⟩
    | (db, _ + 1) => ⟨db, s.trace ++ [.failed decisionId]⟩

/-- The claims of a decision are all for one policy. -/
def OnePolicy (policyOf : String → String) : SettlementCall → Prop
  | .claim decisionId policyId .. => policyId = policyOf decisionId
  | _ => True

instance (policyOf : String → String) (call : SettlementCall) :
    Decidable (OnePolicy policyOf call) := by
  unfold OnePolicy
  split <;> infer_instance

/-- A claim under the decision id that was built for its policy, whose id has no separator. -/
def BuiltClaim (host : Host) (sha : String → String) : SettlementCall → Prop
  | .claim decisionId policyId .. => '|' ∉ policyId.toList ∧
      ∃ feed windowStart, decisionId = buildDecisionId host sha feed policyId windowStart
  | _ => True

/-- Built decision ids are used for one policy each. -/
theorem exists_onePolicy {host : Host} {sha : String → String} (hsha : Function.Injective sha)
    (hnum : ∀ n, '|' ∉ (host.showNumber n).toList) :
    ∃ policyOf, ∀ call, BuiltClaim host sha call → OnePolicy policyOf call := by
  classical
  -- The policy of an id is the one it can be built for.
  let BuiltFor (decisionId policyId : String) : Prop := '|' ∉ policyId.toList ∧
    ∃ feed windowStart, decisionId = buildDecisionId host sha feed policyId windowStart
  refine ⟨fun decisionId =>
    if h : ∃ policyId, BuiltFor decisionId policyId then h.choose else "", ?_⟩
  intro call hcall
  cases call with
  | claim decisionId policyId =>
    have hbuilt : ∃ policyId, BuiltFor decisionId policyId := ⟨policyId, hcall⟩
    obtain ⟨hpol, feed, windowStart, hid⟩ := hcall
    obtain ⟨hpol', feed', windowStart', hid'⟩ := hbuilt.choose_spec
    simp only [OnePolicy, dif_pos hbuilt]
    exact buildDecisionId_policy hsha hnum hpol hpol' (hid.symm.trans hid')
  | markSubmitted | markConfirmed | markFailed => trivial

/-- A feed may hold the separator. -/
theorem exists_onePolicy_unhashed :
    ∃ policyOf : String → String,
      policyOf (buildDecisionId plainHost id "btc|P-2" "P-1" (.finite 1760000000000)) = "P-1" ∧
      policyOf (buildDecisionId plainHost id "btc" "P-2" (.finite 1760000060000)) = "P-2" := by
  obtain ⟨policyOf, hone⟩ := @exists_onePolicy plainHost id Function.injective_id fun n => by
    cases n with
    | finite q => exact notMem_decimalString (by decide) (by decide) q
    | nan | posInf | negInf => decide
  refine ⟨policyOf, ?_, ?_⟩
  · exact (hone (.claim _ "P-1" "100" "evidence" 0) ⟨by decide, _, _, rfl⟩).symm
  · exact (hone (.claim _ "P-2" "100" "evidence" 0) ⟨by decide, _, _, rfl⟩).symm

end Refract.Claim
