import Refract.Lib.OrdMap
import Refract.Lib.Ecma
import Refract.Lib.Runs

/-!
# Operator reward accrual and distribution

`operatorRewards.ts`: the reward formula, the in-memory ledger store, and the four operations that
write to it. The ledger keeps three kinds of entries (accruals, adjustments, payouts) beside a map
of payout records.

SHA-256 is a parameter `sha`.
-/

namespace Refract.Services

open Lib

/-! ## The reward formula -/

def consensusBaseReward : ℚ := 100
def stakeCap : ℚ := 100000
def poolCapPerOperator : ℚ := 250
def dustPrecision : Nat := 6
def minPayoutThreshold : ℚ := 10
def disputeWindowMs : ℚ := 24 * 60 * 60 * 1000

inductive ReadingStatus where
  | committed
  | late
  | quarantined
  | duplicate
  | invalidated
  deriving DecidableEq, Repr

structure ConsensusReading where
  readingId : String
  roundId : String
  operatorId : String
  includedInConsensus : Bool
  status : ReadingStatus
  stake : JsNumber
  reputation : JsNumber

/-- Truncation to `dustPrecision` decimals. -/
def roundDust (value : ℚ) : ℚ := (⌊value * 10 ^ dustPrecision⌋ : ℚ) / 10 ^ dustPrecision

def clamp01 (value : JsNumber) : ℚ :=
  match value with
  | .finite q => if q < 0 then 0 else if 1 < q then 1 else q
  | _ => 0

def computeRewardWeight (stake reputation : JsNumber) : ℚ :=
  match stake with
  | .finite s => if s ≤ 0 then 0 else min s stakeCap / stakeCap * clamp01 reputation
  | _ => 0

/-- The accrual of a single reading; zero for readings that must not accrue. -/
def computeAccrualAmount (reading : ConsensusReading) : ℚ :=
  if reading.includedInConsensus = false then 0
  else if reading.status ≠ .committed then 0
  else
    let weight := computeRewardWeight reading.stake reading.reputation
    if weight ≤ 0 then 0 else roundDust (min (consensusBaseReward * weight) poolCapPerOperator)

/-! ## The ledger store -/

inductive LedgerEntryType where
  | accrual
  | adjustment
  | payout
  deriving DecidableEq, Repr

structure LedgerEntry where
  idempotencyKey : String
  type : LedgerEntryType
  operatorId : String
  amount : ℚ
  roundId : Option String
  readingId : Option String
  createdAt : JsNumber

inductive PayoutStatus where
  | pending
  | paid
  | disputed
  deriving DecidableEq, Repr

structure RewardAccrual where
  idempotencyKey : String
  roundId : String
  readingId : String
  operatorId : String
  amount : ℚ
  createdAt : JsNumber

structure PayoutRecord where
  idempotencyKey : String
  operatorId : String
  amount : ℚ
  scheduledAt : JsNumber
  disputeWindowEndsAt : JsNumber
  status : PayoutStatus

/-- `InMemoryRewardLedgerStore`: two maps keyed by idempotency key. -/
structure RewardLedgerStore where
  entries : OrdMap String LedgerEntry
  payouts : OrdMap String PayoutRecord

namespace RewardLedgerStore

def empty : RewardLedgerStore := ⟨OrdMap.empty, OrdMap.empty⟩

variable (store : RewardLedgerStore)

def hasEntry (key : String) : Bool := store.entries.contains key

/-- Appends an entry unless its key is taken. -/
def appendEntry (entry : LedgerEntry) : RewardLedgerStore :=
  if store.hasEntry entry.idempotencyKey then store
  else { store with entries := store.entries.set entry.idempotencyKey entry }

/-- The entries of an operator; an empty id selects all of them. -/
def listEntries (operatorId : String) : List LedgerEntry :=
  if operatorId = "" then store.entries.values
  else store.entries.values.filter fun e => e.operatorId = operatorId

/-- The payout records of an operator; an empty id selects all of them. -/
def listPayouts (operatorId : String) : List PayoutRecord :=
  if operatorId = "" then store.payouts.values
  else store.payouts.values.filter fun p => p.operatorId = operatorId

def upsertPayout (payout : PayoutRecord) : RewardLedgerStore :=
  { store with payouts := store.payouts.set payout.idempotencyKey payout }

end RewardLedgerStore

/-! ## Operations -/

section Operations

variable (host : Host) (sha : String → String)

def accrualIdempotencyKey (roundId readingId operatorId : String) : String :=
  sha ("accrual:" ++ roundId ++ ":" ++ readingId ++ ":" ++ operatorId)

def adjustmentIdempotencyKey (accrualKey : String) : String := sha ("adjustment:" ++ accrualKey)

def payoutIdempotencyKey (operatorId : String) (amount : ℚ) : String :=
  sha ("payout:" ++ operatorId ++ ":" ++ host.numberToString amount)

/-- One iteration of `accrueRewards`. -/
def accrueReading (now : JsNumber) (acc : RewardLedgerStore × List RewardAccrual)
    (reading : ConsensusReading) : RewardLedgerStore × List RewardAccrual :=
  let amount := computeAccrualAmount reading
  let key := accrualIdempotencyKey sha reading.roundId reading.readingId reading.operatorId
  if amount ≤ 0 then acc
  else if acc.1.hasEntry key then acc
  else
    (acc.1.appendEntry
      { idempotencyKey := key, type := .accrual, operatorId := reading.operatorId, amount,
        roundId := some reading.roundId, readingId := some reading.readingId, createdAt := now },
      acc.2 ++ [⟨key, reading.roundId, reading.readingId, reading.operatorId, amount, now⟩])

variable (store : RewardLedgerStore)

/-- Accrues rewards for committed readings; a key that has accrued is skipped. -/
def accrueRewards (readings : List ConsensusReading) (now : JsNumber) :
    RewardLedgerStore × List RewardAccrual :=
  readings.foldl (accrueReading sha now) (store, [])

/-- Reverses an accrual when its reading is invalidated. -/
def invalidateAccrual (roundId readingId operatorId : String) (now : JsNumber) :
    RewardLedgerStore × Option LedgerEntry :=
  let accrualKey := accrualIdempotencyKey sha roundId readingId operatorId
  let adjustmentKey := adjustmentIdempotencyKey sha accrualKey
  if store.hasEntry accrualKey = false ∨ store.hasEntry adjustmentKey then (store, none)
  else match (store.listEntries operatorId).find? fun e => e.idempotencyKey = accrualKey with
    | none => (store, none)
    | some original =>
      let entry : LedgerEntry :=
        { idempotencyKey := adjustmentKey, type := .adjustment, operatorId,
          amount := -original.amount, roundId := some roundId, readingId := some readingId,
          createdAt := now }
      (store.appendEntry entry, some entry)

/-- One iteration of the loop that sums balances: payout entries are skipped. -/
def addBalance (balances : OrdMap String ℚ) (entry : LedgerEntry) : OrdMap String ℚ :=
  if entry.type = .payout then balances
  else balances.set entry.operatorId ((balances.get? entry.operatorId).getD 0 + entry.amount)

/-- The balance of every operator with an accrual or adjustment. -/
def balances : OrdMap String ℚ :=
  (store.listEntries "").foldl addBalance OrdMap.empty

/-- A payout is created for an operator with this balance: the balance reaches the threshold and
no record has the key of this operator and amount. -/
def schedulesFor (operatorId : String) (balance : ℚ) : Prop :=
  minPayoutThreshold ≤ balance ∧
    ((store.listPayouts operatorId).find? fun p =>
      p.idempotencyKey = payoutIdempotencyKey host sha operatorId (roundDust balance)) = none

instance (store : RewardLedgerStore) (operatorId : String) (balance : ℚ) :
    Decidable (schedulesFor host sha store operatorId balance) :=
  inferInstanceAs (Decidable (_ ∧ _))

/-- The record `schedulePayouts` creates. -/
def newPayout (now : JsNumber) (operatorId : String) (balance : ℚ) : PayoutRecord where
  idempotencyKey := payoutIdempotencyKey host sha operatorId (roundDust balance)
  operatorId
  amount := roundDust balance
  scheduledAt := now
  disputeWindowEndsAt := now.addFinite disputeWindowMs
  status := .pending

/-- One iteration of `schedulePayouts`. -/
def schedulePayout (now : JsNumber) (acc : RewardLedgerStore × List PayoutRecord)
    (balance : String × ℚ) : RewardLedgerStore × List PayoutRecord :=
  if schedulesFor host sha acc.1 balance.1 balance.2 then
    let payout := newPayout host sha now balance.1 balance.2
    (acc.1.upsertPayout payout, acc.2 ++ [payout])
  else acc

/-- Schedules payouts for operators whose balance meets the threshold. -/
def schedulePayouts (now : JsNumber) : RewardLedgerStore × List PayoutRecord :=
  (balances store).entries.foldl (schedulePayout host sha now) (store, [])

/-- A pending record whose dispute window has elapsed. -/
def settles (now : JsNumber) (payout : PayoutRecord) : Bool :=
  payout.status = .pending && !(now.lt payout.disputeWindowEndsAt)

/-- The record of a payout that was made. -/
def PayoutRecord.asPaid (payout : PayoutRecord) : PayoutRecord := { payout with status := .paid }

/-- What settling one record writes: its payout entry and its paid form. -/
def settlePayout (now : JsNumber) (store : RewardLedgerStore) (payout : PayoutRecord) :
    RewardLedgerStore :=
  (store.appendEntry
    { idempotencyKey := payout.idempotencyKey, type := .payout, operatorId := payout.operatorId,
      amount := -payout.amount, roundId := none, readingId := none,
      createdAt := now }).upsertPayout payout.asPaid

/-- Settles the pending payouts whose dispute window has elapsed, and returns them as paid. -/
def settlePayouts (now : JsNumber) : RewardLedgerStore × List PayoutRecord :=
  let due := (store.listPayouts "").filter (settles now)
  (due.foldl (settlePayout now) store, due.map PayoutRecord.asPaid)

end Operations

/-! ## Runs -/

/-- A call of one of the four operations. -/
inductive RewardCall where
  | accrueRewards (readings : List ConsensusReading) (now : JsNumber)
  | invalidateAccrual (roundId readingId operatorId : String) (now : JsNumber)
  | schedulePayouts (now : JsNumber)
  | settlePayouts (now : JsNumber)

/-- The store, and every record `settlePayouts` has marked paid. -/
structure RewardState where
  store : RewardLedgerStore
  everPaid : List PayoutRecord

/-- The empty store, before any call. -/
def RewardState.start : RewardState := ⟨RewardLedgerStore.empty, []⟩

/-- The effect of one call. -/
def rewardStep (host : Host) (sha : String → String) (s : RewardState) :
    RewardCall → RewardState
  | .accrueRewards readings now => { s with store := (accrueRewards sha s.store readings now).1 }
  | .invalidateAccrual roundId readingId operatorId now =>
    { s with store := (invalidateAccrual sha s.store roundId readingId operatorId now).1 }
  | .schedulePayouts now => { s with store := (schedulePayouts host sha s.store now).1 }
  | .settlePayouts now =>
    { store := (settlePayouts s.store now).1
      everPaid := s.everPaid ++ (settlePayouts s.store now).2 }

/-- What an entry adds to the total of one kind for one operator. -/
def entryShare (type : LedgerEntryType) (operatorId : String) (e : LedgerEntry) : ℚ :=
  if e.type = type ∧ e.operatorId = operatorId then e.amount else 0

/-- Total of the operator's entries of one kind. -/
def entryTotal (type : LedgerEntryType) (store : RewardLedgerStore) (operatorId : String) : ℚ :=
  (store.entries.values.map (entryShare type operatorId)).sum

/-- What a record adds to the operator's payout total. -/
def payoutShare (operatorId : String) (p : PayoutRecord) : ℚ :=
  if p.operatorId = operatorId then p.amount else 0

/-- Total of the operator's payout records, whatever their status. -/
def payoutTotal (store : RewardLedgerStore) (operatorId : String) : ℚ :=
  (store.payouts.values.map (payoutShare operatorId)).sum

/-- Total of the operator's records in a list of records marked paid. -/
def paidTotal (records : List PayoutRecord) (operatorId : String) : ℚ :=
  (records.map (payoutShare operatorId)).sum

/-- A call is covered if it is not a `schedulePayouts`, or every payout it creates is for an
operator whose existing records total at most what adjustments took back from the operator. -/
def Covered (host : Host) (sha : String → String) (s : RewardState) : RewardCall → Prop
  | .schedulePayouts _ =>
    ∀ p ∈ (balances s.store).entries, schedulesFor host sha s.store p.1 p.2 →
      payoutTotal s.store p.1 ≤ -entryTotal .adjustment s.store p.1
  | _ => True

end Refract.Services
