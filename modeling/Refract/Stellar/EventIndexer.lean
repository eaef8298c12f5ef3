import Mathlib.Data.Prod.Lex
import Mathlib.Data.String.Basic
import Refract.Lib.Runs
import Refract.Lib.Tables

/-!
# The Soroban event indexer

A poll of `EventIndexerService` reads the events of the configured contracts from the saved cursor
on, page by page; each event is dispatched to its handler, recorded in `processed_events`, and then
the cursor is saved. Without a saved cursor a poll starts at the tip of the network. `backfill` does
the same for a range of ledgers that an operator names, and saves the same cursor. A poll or
backfill can fail between any two statements, and ledgers close while it runs.

The chain is the list of the contracts' events in closed ledgers. The server answers a request with
the first events from a ledger on, or behind a position, in the order of ledgers and event ids.
-/

namespace Refract.Stellar.Indexer

open Lib

/-! ## Events -/

/-- An event of one of the configured contracts. A topic that does not decode to a string is
`none`. -/
structure ChainEvent where
  id : String
  ledger : Nat
  contractId : String
  txHash : Option String
  topics : List (Option String)
  deriving DecidableEq, Repr

/-- A place in the order of events. Event ids have digits of a fixed width, so that strings are
ordered as the events are. -/
abbrev Position := Nat ×ₗ String

def ChainEvent.position (e : ChainEvent) : Position := toLex (e.ledger, e.id)

/-- The values of `EVENT_TOPICS`. -/
def eventTopics : List String :=
  ["policy_purchased", "capital_provided", "capital_withdrawn", "claim_processed"]

def isKnownTopic (name : String) : Bool := decide (name ∈ eventTopics)

/-- The first topic that is a key of the topic set, where `in` also finds the keys every object
inherits; or else the last string. -/
def extractEventTopicName (topics : List (Option String)) : Option String :=
  let names := topics.filterMap id
  (names.find? fun t => isKnownTopic t || decide (t ∈ objectPrototypeKeys)).or names.getLast?

/-- A row of `processed_events`. -/
structure ProcessedRow where
  eventId : String
  ledger : Nat
  topic : String
  contractId : String
  txHash : Option String

def processedRow (e : ChainEvent) : ProcessedRow where
  eventId := e.id
  ledger := e.ledger
  topic := (extractEventTopicName e.topics).getD "unknown"
  contractId := e.contractId
  txHash := e.txHash

/-- The row of `indexer_cursors`; ledger 0 stands for no cursor. -/
structure IndexerCursor where
  lastLedger : Nat
  lastEventId : String
  deriving DecidableEq, Repr

def IndexerCursor.position (cursor : IndexerCursor) : Position :=
  toLex (cursor.lastLedger, cursor.lastEventId)

def shouldSkipAlreadySeen (e : ChainEvent) (cursor : IndexerCursor) : Bool :=
  if cursor.lastLedger = 0 ∨ cursor.lastEventId = "" then false
  else if e.ledger < cursor.lastLedger then true
  else if cursor.lastLedger < e.ledger then false
  else decide (e.id ≤ cursor.lastEventId)

/-! ## The server -/

structure IndexerConfig where
  pageLimit : Nat
  /-- The size of a page where the request asks for a limit of zero. -/
  serverLimit : Nat
  serverLimit_pos : 0 < serverLimit

def IndexerConfig.pageSize (config : IndexerConfig) : Nat :=
  if config.pageLimit = 0 then config.serverLimit else config.pageLimit

/-- What lies from the start ledger on, or behind the page before. -/
def eventsFrom (log : List ChainEvent) (startLedger : Nat) : Option Position → List ChainEvent
  | none => log.filter fun e => decide (startLedger ≤ e.ledger)
  | some cursor => log.filter fun e => decide (cursor < e.position)

/-! ## Polls and backfills -/

inductive PassKind where
  | poll
  | backfill (fromLedger toLedger : Nat)

/-- Where a pass is: before a request, or with the rest of a page to go through, where the first
event of the rest may have been dispatched and is to be recorded, or has been recorded and the
cursor is to be saved. -/
inductive PassPhase where
  | fetching
  | draining (page todo : List ChainEvent)
  | recording (page : List ChainEvent) (e : ChainEvent) (todo : List ChainEvent)
  | saving (page : List ChainEvent) (e : ChainEvent) (todo : List ChainEvent)

/-- A poll or backfill under way. `startTip` is the tip at its start, `resume` the cursor that a
poll compares events with. -/
structure Pass where
  kind : PassKind
  startTip : Nat
  startLedger : Nat
  pageCursor : Option Position
  resume : IndexerCursor
  phase : PassPhase

/-- The events of a page that the pass does not process: those a poll has seen, those outside the
range of a backfill. -/
def Pass.skips (pass : Pass) (e : ChainEvent) : Bool :=
  match pass.kind with
  | .poll => shouldSkipAlreadySeen e pass.resume
  | .backfill fromLedger toLedger => !decide (fromLedger ≤ e.ledger ∧ e.ledger ≤ toLedger)

/-- After this page the pass is through. -/
def Pass.endsWith (config : IndexerConfig) (pass : Pass) (page : List ChainEvent)
    (last : ChainEvent) : Bool :=
  decide (page.length < config.pageLimit) ||
    match pass.kind with
    | .poll => false
    | .backfill _ toLedger => decide (toLedger < last.ledger)

/-- `firstStart` is the start ledger of the first poll, `completed` has the tips at the start of the
polls that have completed. -/
structure IndexerState where
  tip : Nat
  log : List ChainEvent
  cursor : IndexerCursor
  processed : List ProcessedRow
  handled : List ChainEvent
  pass : Option Pass
  firstStart : Option Nat
  completed : List Nat

def IndexerState.initial : IndexerState := ⟨0, [], ⟨0, ""⟩, [], [], none, none, []⟩

section Steps

variable (config : IndexerConfig) (s : IndexerState)

def hasProcessed (eventId : String) : Bool :=
  s.processed.any fun row => decide (row.eventId = eventId)

/-- `INSERT … ON CONFLICT (event_id) DO NOTHING` -/
def tryMarkProcessed (e : ChainEvent) : List ProcessedRow :=
  if hasProcessed s e.id then s.processed else s.processed ++ [processedRow e]

/-- The pass is through. -/
def finish (pass : Pass) : IndexerState :=
  { s with
    pass := none
    completed := match pass.kind with
      | .poll => s.completed ++ [pass.startTip]
      | .backfill _ _ => s.completed }

/-- The server answers a request. A pass whose start is older than what the server retains fails. -/
def fetchPage (pass : Pass) (oldestLedger : Option Nat) : IndexerState :=
  if 0 < pass.startLedger ∧ oldestLedger.any (fun oldest => decide (pass.startLedger < oldest)) then
    { s with pass := none }
  else
    let page := (eventsFrom s.log pass.startLedger pass.pageCursor).take config.pageSize
    if page = [] then finish s pass
    else { s with pass := some { pass with phase := .draining page page } }

/-- The page has been gone through: the next one, or the end. -/
def turnPage (pass : Pass) (page : List ChainEvent) : IndexerState :=
  match page.getLast? with
  | none => finish s pass
  | some last =>
    if pass.endsWith config page last then finish s pass
    else
      let startLedger := match pass.kind with
        | .poll => last.ledger
        | .backfill fromLedger _ => fromLedger
      { s with pass := some { pass with
          startLedger
          pageCursor := some last.position
          phase := .fetching } }

/-- The first event of the rest of a page: it is skipped, found recorded, or dispatched to its
handler. -/
def beginEvent (pass : Pass) (page : List ChainEvent) (e : ChainEvent) (todo : List ChainEvent) :
    IndexerState :=
  if pass.skips e then { s with pass := some { pass with phase := .draining page todo } }
  else if hasProcessed s e.id then
    { s with pass := some { pass with phase := .saving page e todo } }
  else
    { s with
      handled := s.handled ++ [e]
      pass := some { pass with phase := .recording page e todo } }

/-- The next statement of the pass succeeds. -/
def work (pass : Pass) (oldestLedger : Option Nat) : IndexerState :=
  match pass.phase with
  | .fetching => fetchPage config s pass oldestLedger
  | .draining page [] => turnPage config s pass page
  | .draining page (e :: todo) => beginEvent s pass page e todo
  | .recording page e todo =>
    { s with
      processed := tryMarkProcessed s e
      pass := some { pass with phase := .saving page e todo } }
  | .saving page e todo =>
    { s with
      cursor := ⟨e.ledger, e.id⟩
      pass := some { pass with
        resume := ⟨e.ledger, e.id⟩
        phase := .draining page todo } }

/-- The first ledger of a poll: that of the saved cursor, or the tip. -/
def resolveStartLedger : Nat := if 0 < s.cursor.lastLedger then s.cursor.lastLedger else s.tip

end Steps

inductive IndexerLabel where
  | close (events : List ChainEvent)
  | poll
  | backfill (fromLedger toLedger : Nat)
  | work (oldestLedger : Option Nat)
  | fail

/-- The events of the next ledger: in the order of their ids, which occur nowhere else. -/
def closes (s : IndexerState) (events : List ChainEvent) : Bool :=
  decide ((∀ e ∈ events, e.ledger = s.tip + 1) ∧
    (s.log ++ events).Pairwise (fun a b => a.position < b.position) ∧
    UniqueKey ChainEvent.id (s.log ++ events))

/-- One step; `none` where the label does not fit the state. -/
def indexerStep (config : IndexerConfig) (s : IndexerState) : IndexerLabel → Option IndexerState
  | .close events =>
    if closes s events then some { s with tip := s.tip + 1, log := s.log ++ events } else none
  | .poll =>
    match s.pass with
    | some _ => none
    | none =>
      let startLedger := resolveStartLedger s
      some { s with
        pass := some ⟨.poll, s.tip, startLedger, none, s.cursor, .fetching⟩
        firstStart := s.firstStart.or (some startLedger) }
  | .backfill fromLedger toLedger =>
    match s.pass with
    | some _ => none
    | none =>
      if toLedger < fromLedger then none
      else some { s with
        pass := some ⟨.backfill fromLedger toLedger, s.tip, fromLedger, none, s.cursor,
          .fetching⟩ }
  | .work oldestLedger => s.pass.map fun pass => work config s pass oldestLedger
  | .fail => s.pass.map fun _ => { s with pass := none }

abbrev IndexerSteps (config : IndexerConfig) (s : IndexerState) (l : IndexerLabel)
    (s' : IndexerState) : Prop :=
  indexerStep config s l = some s'

end Refract.Stellar.Indexer
