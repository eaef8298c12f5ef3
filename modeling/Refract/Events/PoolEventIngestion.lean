import Refract.Lib.Ecma
import Refract.Lib.OrderedLog

/-!
# Ingesting pool contract events

`PoolEventIngestionService` reads the events of the pool contract page by page and stores the ones
it knows. One `ingestNextPage` is one transaction: it locks the row of `soroban_event_cursors`, asks
the RPC for the page behind the checkpoint, inserts the rows and moves the checkpoint. `FOR UPDATE`
makes other processes wait for that row, so at most one transaction is between its lock and its end.
The chain goes on meanwhile.

The RPC answers from what one node knows of the chain: all ledgers up to `latestLedger`. A page is
the first `EVENT_PAGE_SIZE` events behind the requested position, in order. Decoding XDR values
belongs to the SDK, so events carry the native values.
-/

namespace Refract.Events

open Lib

/-! ## Events -/

/-- A value that `scValToNative` gives; `other` are the ones that are no string, number, big integer
or array. -/
inductive NativeValue where
  | string (s : String)
  | number (n : Int)
  | bigint (n : Int)
  | array (items : List NativeValue)
  | other

inductive PoolEventType where
  | policyPurchased
  | capitalProvided
  | capitalWithdrawn
  | claimSettled

def PoolEventType.text : PoolEventType → String
  | policyPurchased => "POLICY_PURCHASED"
  | capitalProvided => "CAPITAL_PROVIDED"
  | capitalWithdrawn => "CAPITAL_WITHDRAWN"
  | claimSettled => "CLAIM_SETTLED"

/-- An event of the contract as the RPC returns it. -/
structure ChainEvent where
  id : String
  pagingToken : String
  contractId : Option String
  topic : List NativeValue
  value : NativeValue
  ledger : Nat
  txHash : String
  ledgerClosedAt : String

/-- A row of `soroban_pool_events`; `payload` is stored as JSON text. -/
structure NormalizedPoolEvent where
  eventId : String
  cursor : String
  contractId : String
  eventType : PoolEventType
  ledger : Nat
  txHash : String
  ledgerClosedAt : String
  holder : Option String
  policyId : Option String
  amount : Option String
  secondaryAmount : Option String
  expiresAt : Option String
  payload : List NativeValue × List NativeValue

/-- `stringValue`; a missing value is `undefined`. -/
def stringValue (value : Option NativeValue) (field : String) : Except String String :=
  match value with
  | some (.string s) => .ok s
  | some (.number n) => .ok (toString n)
  | some (.bigint n) => .ok (toString n)
  | some (.array _) | some .other | none =>
    .error ("Unexpected " ++ field ++ " value in pool contract event")

def tupleValue (value : NativeValue) (field : String) : Except String (List NativeValue) :=
  match value with
  | .array items => .ok items
  | .string _ | .number _ | .bigint _ | .other =>
    .error ("Unexpected " ++ field ++ " tuple in pool contract event")

/-- `eventTypes`. -/
def eventTypes : List (String × PoolEventType) :=
  [("BUY", .policyPurchased), ("PROVIDE", .capitalProvided), ("WITHDRAW", .capitalWithdrawn),
   ("CLAIM", .claimSettled)]

/-- The columns that the payload of an event fills: the policy, the two amounts and the expiry. -/
def payloadColumns (eventType : PoolEventType) (payload : List NativeValue) :
    Except String (Option String × Option String × Option String × Option String) :=
  match eventType with
  | .policyPurchased => do
      let policyId ← stringValue payload[0]? "policy id"
      let amount ← stringValue payload[1]? "coverage amount"
      let premium ← stringValue payload[2]? "premium"
      let expiresAt ← stringValue payload[3]? "policy expiry"
      .ok (some policyId, some amount, some premium, some expiresAt)
  | .capitalProvided => do
      let amount ← stringValue payload[0]? "provided amount"
      let shares ← stringValue payload[1]? "shares minted"
      .ok (none, some amount, some shares, none)
  | .capitalWithdrawn => do
      let shares ← stringValue payload[0]? "shares burned"
      let amount ← stringValue payload[1]? "withdrawn amount"
      .ok (none, some shares, some amount, none)
  | .claimSettled => do
      let policyId ← stringValue payload[0]? "policy id"
      let payout ← stringValue payload[1]? "claim payout"
      .ok (some policyId, some payout, none, none)

/-- The holder is the second topic, if there is one. -/
def holderOf : List NativeValue → Except String (Option String)
  | _ :: second :: _ => (stringValue (some second) "holder").map some
  | _ => .ok none

/-- The row of an event whose name is known. -/
def normalizeAs (event : ChainEvent) (contractId : String) (eventType : PoolEventType) :
    Except String NormalizedPoolEvent := do
  let holder ← holderOf event.topic
  let payload ← tupleValue event.value "event payload"
  let (policyId, amount, secondaryAmount, expiresAt) ← payloadColumns eventType payload
  .ok {
    eventId := event.id
    cursor := event.pagingToken
    contractId
    eventType
    ledger := event.ledger
    txHash := event.txHash
    ledgerClosedAt := event.ledgerClosedAt
    holder
    policyId
    amount
    secondaryAmount
    expiresAt
    payload := (event.topic, payload) }

/-- `normalizePoolEvent`. A name that every object inherits passes the test with `in`; the row it
gives has no event type, and the check of the table refuses it. -/
def normalizePoolEvent (event : ChainEvent) : Except String (Option NormalizedPoolEvent) :=
  match event.contractId, event.topic with
  | some contractId, .string name :: _ =>
    match eventTypes.lookup name with
    | some eventType => (normalizeAs event contractId eventType).map some
    | none =>
      if name ∈ objectPrototypeKeys then
        .error "new row violates check constraint on event_type"
      else .ok none
  | _, _ => .ok none

/-! ## The tables -/

/-- The row of `soroban_event_cursors`. -/
structure CursorRow where
  cursor : Option String
  nextStartLedger : Nat
  deriving DecidableEq, Repr

structure PoolDb where
  row : Option CursorRow
  events : List NormalizedPoolEvent

/-- `insertEvent`: the primary key is ignored on conflict, the unique cursor is not. -/
def insertEvent (events : List NormalizedPoolEvent) (e : NormalizedPoolEvent) :
    Except String (List NormalizedPoolEvent) :=
  if ∃ stored ∈ events, stored.contractId = e.contractId ∧ stored.eventId = e.eventId then
    .ok events
  else if ∃ stored ∈ events, stored.cursor = e.cursor then
    .error "duplicate key value violates unique constraint on cursor"
  else .ok (events ++ [e])

/-- The loop over a page. -/
def insertPage : List ChainEvent → List NormalizedPoolEvent →
    Except String (List NormalizedPoolEvent)
  | [], events => .ok events
  | event :: rest, events => do
      match ← normalizePoolEvent event with
      | some e => insertPage rest (← insertEvent events e)
      | none => insertPage rest events

/-! ## A transaction -/

/-- `EVENT_PAGE_SIZE`. -/
def eventPageSize : Nat := 100

/-- What `getEvents` finds behind the checkpoint of a row. -/
def CursorRow.rest (row : CursorRow) (chain : List ChainEvent) : List ChainEvent :=
  match row.cursor with
  | some cursor => past (fun e => decide (e.pagingToken = cursor)) chain
  | none => chain.filter fun e => row.nextStartLedger ≤ e.ledger

/-- The page that a node answers which knows the chain up to `latestLedger`. -/
def CursorRow.page (row : CursorRow) (chain : List ChainEvent) (latestLedger : Nat) :
    List ChainEvent :=
  pageOf ChainEvent.ledger eventPageSize latestLedger (row.rest chain)

/-- The checkpoint after a page. -/
def CursorRow.advance (row : CursorRow) (page : List ChainEvent) (latestLedger : Nat) : CursorRow :=
  if page.length = eventPageSize then
    ⟨page.getLast?.map ChainEvent.pagingToken, row.nextStartLedger⟩
  else ⟨none, latestLedger + 1⟩

/-- `ingestNextPage` behind the lock, with the answer of the RPC. -/
def ingestPage (row : CursorRow) (events : List NormalizedPoolEvent) (chain : List ChainEvent)
    (latestLedger : Nat) : Except String PoolDb :=
  (insertPage (row.page chain latestLedger) events).map fun stored =>
    ⟨some (row.advance (row.page chain latestLedger) latestLedger), stored⟩

/-! ## The system -/

/-- A transaction that holds the row: it has read the row, or it is ready to commit what it made of
the tables. -/
inductive PoolTx where
  | reading (process : Nat) (row : CursorRow)
  | written (process : Nat) (db : PoolDb)

/-- The chain up to its latest ledger, the committed tables, and the transaction that holds the
row. -/
structure PoolState where
  chain : List ChainEvent
  tip : Nat
  db : PoolDb
  tx : Option PoolTx

namespace PoolState

/-- Before the first ledger and the first poll. -/
def initial : PoolState where
  chain := []
  tip := 0
  db := ⟨none, []⟩
  tx := none

end PoolState

inductive PoolLabel where
  | close (events : List ChainEvent)
  | lock (process : Nat)
  | answer (latestLedger : Nat)
  | commit
  | rollback

/-- A ledger closes with its events; their ids and paging tokens are new. A transaction that inserts
the cursor row needs a positive start ledger, and the tables change when it commits. An error of a
query or of the RPC, and the end of the process, roll it back. -/
def poolStep (startLedger : Nat) (s : PoolState) : PoolLabel → Option PoolState
  | .close events =>
    if (∀ e ∈ events, e.ledger = s.tip + 1) ∧
        ((s.chain ++ events).map ChainEvent.id).Nodup ∧
        ((s.chain ++ events).map ChainEvent.pagingToken).Nodup then
      some { s with chain := s.chain ++ events, tip := s.tip + 1 }
    else none
  | .lock process =>
    match s.tx, s.db.row with
    | some _, _ => none
    | none, some row => some { s with tx := some (.reading process row) }
    | none, none =>
      if startLedger = 0 then none
      else some { s with tx := some (.reading process ⟨none, startLedger⟩) }
  | .answer latestLedger =>
    match s.tx with
    | some (.reading process row) =>
      if s.tip < latestLedger then none
      else
        match ingestPage row s.db.events s.chain latestLedger with
        | .ok db => some { s with tx := some (.written process db) }
        | .error _ => some { s with tx := none }
    | some (.written _ _) | none => none
  | .commit =>
    match s.tx with
    | some (.written _ db) => some { s with db, tx := none }
    | some (.reading _ _) | none => none
  | .rollback => s.tx.map fun _ => { s with tx := none }

abbrev PoolSteps (startLedger : Nat) (s : PoolState) (l : PoolLabel) (s' : PoolState) : Prop :=
  poolStep startLedger s l = some s'

end Refract.Events
