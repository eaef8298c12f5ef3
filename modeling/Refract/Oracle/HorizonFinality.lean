import Refract.Lib.Runs
import Refract.Lib.Tables

/-!
# Finality of Horizon readings

`HorizonFinalityService` of `horizon-finality.service.ts` over the tables of
`004_horizon_ledger_finality.sql`. A reading is stored with the ledger it was derived from, promoted
to final once that ledger is deep enough and its hash still matches, and invalidated when another
hash is observed for the ledger. Each operation is one database transaction: a function from the
database to the database or to the error that rolls it back.

Ids that the database generates are part of the call. Rows that a statement returns are returned in
table order. The columns that only hold times are left out.
-/

namespace Refract.Oracle

open Lib

/-! ## The tables -/

inductive ReadingFinality where
  | provisional
  | final
  | invalidated
  deriving DecidableEq, Repr

def ReadingFinality.text : ReadingFinality → String
  | .provisional => "provisional"
  | .final => "final"
  | .invalidated => "invalidated"

/-- A row of `horizon_readings`. -/
structure HorizonReading where
  id : Int
  coverageType : String
  source : String
  value : JsNumber
  ledgerSequence : Int
  ledgerHash : String
  finality : ReadingFinality
  decisionId : Option Int

/-- A row of `horizon_ledgers`. -/
structure HorizonLedger where
  sequence : Int
  hash : String
  prevHash : Option String

inductive DecisionStatus where
  | active
  | superseded
  deriving DecidableEq, Repr

/-- A row of `oracle_decisions`. -/
structure OracleDecision where
  id : Int
  coverageType : String
  status : DecisionStatus
  supersededReason : Option String

/-- A row of `oracle_evidence_ledger`. -/
inductive LedgerEvidence where
  | ledgerReorg (ledgerSequence : Int) (oldHash newHash : String)
  | readingInvalidated (ledgerSequence readingId : Int) (oldHash newHash : String)
  | decisionSuperseded (ledgerSequence decisionId : Int) (oldHash newHash : String)

/-- The row of `horizon_ingest_checkpoints` with the key of the readings. -/
structure IngestCheckpoint where
  lastFinalLedger : Int
  lastFinalHash : Option String

structure HorizonDb where
  ledgers : List HorizonLedger
  readings : List HorizonReading
  decisions : List OracleDecision
  evidence : List LedgerEvidence
  checkpoint : Option IngestCheckpoint

def HorizonDb.empty : HorizonDb := ⟨[], [], [], [], none⟩

/-- `SELECT hash FROM horizon_ledgers WHERE sequence = $1`. -/
def HorizonDb.hashAt (db : HorizonDb) (sequence : Int) : Option String :=
  (db.ledgers.find? fun l => l.sequence = sequence).map (·.hash)

/-! ## Configuration -/

inductive FinalityPolicy where
  | finalOnly
  | allowProvisional

def FinalityPolicy.text : FinalityPolicy → String
  | .finalOnly => "final_only"
  | .allowProvisional => "allow_provisional"

/-- The finalities a decision may rest on. -/
def FinalityPolicy.allowed : FinalityPolicy → List ReadingFinality
  | .finalOnly => [.final]
  | .allowProvisional => [.final, .provisional]

structure FinalityConfig where
  depth : Nat
  policy : FinalityPolicy

/-! ## Readings -/

structure HorizonReadingInput where
  coverageType : String
  value : JsNumber
  ledgerSequence : JsNumber
  ledgerHash : String
  source : Option String

/-- Stores a reading as provisional, tagged with its source ledger. -/
def recordReading (db : HorizonDb) (id : Int) (input : HorizonReadingInput) :
    Except SqlState (HorizonDb × Int) := do
  let coverageType ← varchar 32 input.coverageType
  let source ← varchar 40 (input.source.getD "Horizon")
  let ledgerSequence ← bigint input.ledgerSequence
  let ledgerHash ← varchar 64 input.ledgerHash
  .ok ({ db with readings := db.readings ++
    [{ id, coverageType, source, value := input.value, ledgerSequence, ledgerHash,
       finality := .provisional, decisionId := none }] }, id)

/-! ## Reorgs -/

structure ReorgResult where
  reorged : Bool
  ledgerSequence : Option Int
  invalidatedReadingIds : List Int
  supersededDecisionIds : List Int

def ReorgResult.nothing : ReorgResult := ⟨false, none, [], []⟩

/-- The readings a reorg invalidates: those of the ledger that are on another hash. -/
def HorizonReading.isAffected (sequence : Int) (newHash : String) (r : HorizonReading) : Bool :=
  decide (r.ledgerSequence = sequence ∧ r.ledgerHash ≠ newHash ∧ r.finality ≠ .invalidated)

def HorizonReading.invalidate (r : HorizonReading) : HorizonReading :=
  { r with finality := .invalidated }

def OracleDecision.isActive (decisionId : Int) (d : OracleDecision) : Bool :=
  decide (d.id = decisionId ∧ d.status = .active)

/-- The body of the loop over the decisions of the affected readings. -/
def supersede (sequence : Int) (oldHash newHash storedHash : String) (x : HorizonDb × ReorgResult)
    (decisionId : Int) : HorizonDb × ReorgResult :=
  let (db, result) := x
  let reason :=
    "Ledger #" ++ toString sequence ++ " reorged (" ++ oldHash ++ " -> " ++ newHash ++ ")"
  if db.decisions.any (·.isActive decisionId) then
    ({ db with
        decisions := updateWhere (·.isActive decisionId)
          (fun d => { d with status := .superseded, supersededReason := some reason }) db.decisions
        evidence := db.evidence ++
          [LedgerEvidence.decisionSuperseded sequence decisionId oldHash storedHash] },
      { result with supersededDecisionIds := result.supersededDecisionIds ++ [decisionId] })
  else x

/-- Never resume from a ledger that is no longer canonical. -/
def IngestCheckpoint.rewind (sequence : Int) (c : IngestCheckpoint) : IngestCheckpoint :=
  if sequence ≤ c.lastFinalLedger then ⟨max (sequence - 1) 0, none⟩ else c

/-- Another hash for a known ledger. -/
def handleReorg (sequence : Int) (oldHash newHash : String) (x : HorizonDb × ReorgResult) :
    Except SqlState (HorizonDb × ReorgResult) := do
  let (db, result) := x
  -- The evidence row is the first to hold the new hash, so an oversized one is refused here.
  let storedHash ← varchar 64 newHash
  let affected := db.readings.filter (·.isAffected sequence newHash)
  let invalidated :=
    { db with
      readings := updateWhere (·.isAffected sequence newHash) HorizonReading.invalidate db.readings
      evidence := db.evidence ++ .ledgerReorg sequence oldHash storedHash ::
        affected.map fun r => .readingInvalidated sequence r.id oldHash storedHash }
  let reported :=
    { result with
      reorged := true
      ledgerSequence := some sequence
      invalidatedReadingIds := result.invalidatedReadingIds ++ affected.map (·.id) }
  let (db, result) := (affected.filterMap (·.decisionId)).eraseDups.foldl
    (supersede sequence oldHash newHash storedHash) (invalidated, reported)
  .ok ({ db with
    checkpoint := db.checkpoint.map (·.rewind sequence)
    ledgers := updateWhere (fun l => decide (l.sequence = sequence))
      (fun l => { l with hash := storedHash }) db.ledgers }, result)

/-- Compares the hash of a ledger with the stored one; an empty stored hash counts as none. -/
def detectReorg (sequence : Int) (hash : String) (x : HorizonDb × ReorgResult) :
    Except SqlState (HorizonDb × ReorgResult) :=
  match x.1.hashAt sequence with
  | some stored =>
    if stored ≠ "" ∧ stored ≠ hash then handleReorg sequence stored hash x else .ok x
  | none => .ok x

/-- The same for the parent, when the observation names its hash. -/
def detectParentReorg (sequence : Int) (prevHash : Option String) (x : HorizonDb × ReorgResult) :
    Except SqlState (HorizonDb × ReorgResult) :=
  match prevHash with
  | some prevHash =>
    if prevHash ≠ "" ∧ 1 < sequence then detectReorg (sequence - 1) prevHash x else .ok x
  | none => .ok x

/-- `INSERT INTO horizon_ledgers … ON CONFLICT (sequence) DO UPDATE`. -/
def upsertLedger (row : HorizonLedger) (ledgers : List HorizonLedger) : List HorizonLedger :=
  if ledgers.any fun l => l.sequence = row.sequence then
    updateWhere (fun l => decide (l.sequence = row.sequence)) (fun _ => row) ledgers
  else ledgers ++ [row]

/-- Records a ledger observed from Horizon and runs reorg detection against what was stored. -/
def observeLedger (db : HorizonDb) (sequence : JsNumber) (hash : String)
    (prevHash : Option String) : Except SqlState (HorizonDb × ReorgResult) := do
  let sequence ← bigint sequence
  let x ← detectReorg sequence hash (db, .nothing)
  let (db, result) ← detectParentReorg sequence prevHash x
  let hash ← varchar 64 hash
  let prevHash ← prevHash.mapM (varchar 64)
  .ok ({ db with ledgers := upsertLedger ⟨sequence, hash, prevHash⟩ db.ledgers }, result)

/-! ## Promotion -/

/-- The readings a promotion reaches: deep enough, and still on the stored hash of their ledger. -/
def HorizonReading.isPromoted (ledgers : List HorizonLedger) (finalizedUpTo : Int)
    (r : HorizonReading) : Bool :=
  decide (r.finality = .provisional ∧ r.ledgerSequence ≤ finalizedUpTo) &&
    ledgers.any fun l => l.sequence = r.ledgerSequence ∧ l.hash = r.ledgerHash

def HorizonReading.promote (r : HorizonReading) : HorizonReading := { r with finality := .final }

/-- The upsert of the checkpoint: it never moves back. -/
def advanceCheckpoint (ledger : Int) (hash : Option String) :
    Option IngestCheckpoint → IngestCheckpoint
  | none => ⟨ledger, hash⟩
  | some c => ⟨max c.lastFinalLedger ledger,
      if c.lastFinalLedger ≤ ledger then hash else c.lastFinalHash⟩

/-- Promotes the provisional readings that are `depth` ledgers behind and advances the checkpoint;
returns the ids it promoted. -/
def promoteFinalized (config : FinalityConfig) (db : HorizonDb) (latestLedger : JsNumber) :
    Except SqlState (HorizonDb × List Int) :=
  let finalizedUpTo := latestLedger.addFinite (-config.depth)
  if finalizedUpTo.lt (.finite 1) then .ok (db, [])
  else do
    let finalizedUpTo ← bigint finalizedUpTo
    let promoted := (·.isPromoted db.ledgers finalizedUpTo)
    .ok ({ db with
      readings := updateWhere promoted HorizonReading.promote db.readings
      checkpoint :=
        some (advanceCheckpoint finalizedUpTo (db.hashAt finalizedUpTo) db.checkpoint) },
      (db.readings.filter promoted).map (·.id))

/-! ## Decisions -/

/-- `id = ANY($1::bigint[])`. -/
def HorizonReading.isIn (readingIds : List JsNumber) (r : HorizonReading) : Bool :=
  decide (JsNumber.finite r.id ∈ readingIds)

/-- The message for readings that a decision may not rest on. -/
def ineligibleMessage (policy : FinalityPolicy) (ineligible : List HorizonReading) : String :=
  "Readings not eligible under \"" ++ policy.text ++ "\" policy: " ++
    if ineligible = [] then "unknown ids"
    else ", ".intercalate
      (ineligible.map fun r => toString r.id ++ "(" ++ r.finality.text ++ ")")

/-- Records a consensus decision and links the readings it relied on. -/
def recordDecision (config : FinalityConfig) (db : HorizonDb) (id : Int) (coverageType : String)
    (readingIds : List JsNumber) : Except Rejection (HorizonDb × Int) :=
  if readingIds = [] then .error (.failed "A decision must reference at least one reading")
  else if readingIds.any fun n => (bigint n).toBool = false then
    .error (.database .invalidValue)
  else
    let readings := db.readings.filter (·.isIn readingIds)
    let ineligible := readings.filter fun r => decide (r.finality ∉ config.policy.allowed)
    if readings.length ≠ readingIds.eraseDups.length ∨ ineligible ≠ [] then
      .error (.failed (ineligibleMessage config.policy ineligible))
    else
      match varchar 32 coverageType with
      | .error state => .error (.database state)
      | .ok coverageType => .ok ({ db with
          decisions := db.decisions ++
            [{ id, coverageType, status := .active, supersededReason := none }]
          readings := updateWhere (·.isIn readingIds)
            (fun r => { r with decisionId := some id }) db.readings }, id)

/-! ## Runs -/

/-- A call of one of the operations, with the id the database gives to a new row. -/
inductive HorizonCall where
  | recordReading (id : Int) (input : HorizonReadingInput)
  | observeLedger (sequence : JsNumber) (hash : String) (prevHash : Option String)
  | promoteFinalized (latestLedger : JsNumber)
  | recordDecision (id : Int) (coverageType : String) (readingIds : List JsNumber)

/-- A decision with the readings it was recorded with, as they were then. -/
structure RecordedDecision where
  id : Int
  readings : List HorizonReading

/-- The database, and the decisions recorded so far. -/
structure HorizonState where
  db : HorizonDb
  recorded : List RecordedDecision

def HorizonState.start : HorizonState := ⟨HorizonDb.empty, []⟩

/-- The id of a new row is not taken. -/
def HorizonDb.Allows (db : HorizonDb) : HorizonCall → Prop
  | .recordReading id _ => ∀ r ∈ db.readings, r.id ≠ id
  | .recordDecision id _ _ => ∀ d ∈ db.decisions, d.id ≠ id
  | .observeLedger .. | .promoteFinalized .. => True

instance HorizonDb.decidableAllows (db : HorizonDb) (call : HorizonCall) :
    Decidable (db.Allows call) := by
  unfold HorizonDb.Allows
  split <;> infer_instance

/-- The effect of one call; a rejected one is rolled back. -/
def HorizonState.perform (config : FinalityConfig) (s : HorizonState) : HorizonCall → HorizonState
  | .recordReading id input => { s with db := commit s.db (recordReading s.db id input) }
  | .observeLedger sequence hash prevHash =>
    { s with db := commit s.db (observeLedger s.db sequence hash prevHash) }
  | .promoteFinalized latestLedger =>
    { s with db := commit s.db (promoteFinalized config s.db latestLedger) }
  | .recordDecision id coverageType readingIds =>
    match recordDecision config s.db id coverageType readingIds with
    | .ok (db, id) =>
      ⟨db, s.recorded ++ [⟨id, s.db.readings.filter (·.isIn readingIds)⟩]⟩
    | .error _ => s

/-- One call of the service. -/
def horizonStep (config : FinalityConfig) (s : HorizonState) (call : HorizonCall) :
    Option HorizonState :=
  if s.db.Allows call then some (s.perform config call) else none

/-- Steps of the service as a relation. -/
abbrev HorizonSteps (config : FinalityConfig) (s : HorizonState) (call : HorizonCall)
    (s' : HorizonState) : Prop :=
  horizonStep config s call = some s'

end Refract.Oracle
