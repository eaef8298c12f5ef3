import Refract.Lib.OrdMap
import Refract.Lib.Runs
import Refract.Lib.Tables

/-!
# Consensus windows

A reading belongs to the window of its feed that its source timestamp falls into. `ingest` stores
it there unless it arrives after the watermark, its source has a reading in the window already, or
the feed drops late readings; `evaluateWindow` decides a window from its stored readings and records
the decision; `replayWindow` evaluates again and compares the hash of the inputs with the recorded
one.

The three tables are the state. Each call is one step, with the time of its arrival or of its
evaluation, and a call that throws leaves the tables as they were.
-/

namespace Refract.Oracle.Windowing

open Lib

/-! ## Feed configurations -/

inductive LateArrivalPolicy where
  | drop
  | carryNext
  deriving DecidableEq, Repr

structure FeedWindowConfig where
  feedId : String
  windowDurationMs : ℚ
  allowedLatenessMs : ℚ
  lateArrivalPolicy : LateArrivalPolicy
  bestEffort : Bool

/-- Windows of 30 seconds that admit readings 5 seconds late. -/
def standardFeed (feedId : String) (policy : LateArrivalPolicy) : FeedWindowConfig :=
  ⟨feedId, 30000, 5000, policy, false⟩

/-- `DEFAULT_FEED_WINDOW_CONFIGS`. -/
def defaultFeedWindowConfigs : List FeedWindowConfig :=
  [standardFeed "StablecoinDepeg" .drop, standardFeed "MarketCrash" .drop,
   standardFeed "LiquidationShield" .carryNext, standardFeed "SmartContractRisk" .drop,
   ⟨"FlightDelay", 60000, 10000, .carryNext, true⟩]

def getFeedConfig (feedId : String) (configs : List FeedWindowConfig) : FeedWindowConfig :=
  (configs.find? fun c => decide (c.feedId = feedId)).getD (standardFeed feedId .drop)

/-! ## Windows and times

Times are milliseconds since the epoch. A `Date` outside the range of ECMAScript is invalid: it
has no ISO string, the database refuses it, and no time compares as later than it. -/

structure WindowBounds where
  windowId : String
  windowStart : Int
  windowEnd : Option Int

def computeWindowBounds (feedId : String) (sourceTimestamp : Int) (windowDurationMs : ℚ) :
    Except JsError WindowBounds :=
  -- a division by zero makes the date of the start invalid
  let start := if windowDurationMs = 0 then none
    else timeClip (⌊sourceTimestamp / windowDurationMs⌋ * windowDurationMs)
  match start with
  | none => .error (.rangeError "Invalid time value")
  | some windowStart => .ok
      { windowId := feedId ++ ":" ++ isoOfMillis windowStart
        windowStart
        windowEnd := timeClip (windowStart + windowDurationMs) }

def computeWatermark (windowEnd : Int) (allowedLatenessMs : ℚ) : Option Int :=
  timeClip (windowEnd + allowedLatenessMs)

def isArrivedTooLate (arrivalTime windowEnd : Int) (allowedLatenessMs : ℚ) : Bool :=
  (computeWatermark windowEnd allowedLatenessMs).any fun watermark =>
    decide (watermark < arrivalTime)

def isLateArrival (arrivalTime windowEnd : Int) : Bool := decide (windowEnd < arrivalTime)

def isWindowClosed (windowEnd now : Int) : Bool := decide (windowEnd ≤ now)

/-! ## Columns -/

inductive Severity where
  | low
  | medium
  | high
  | triggered
  deriving DecidableEq, Repr

def Severity.text : Severity → String
  | .low => "low"
  | .medium => "medium"
  | .high => "high"
  | .triggered => "triggered"

/-- What a `NUMERIC` column holds. -/
inductive Numeric where
  | nan
  | value (q : ℚ)
  deriving DecidableEq, Repr

/-- What a column of type `NUMERIC(20, 6)` stores: six decimals, a half rounded away from zero. -/
def numericColumn : JsNumber → Except SqlState Numeric
  | .nan => .ok .nan
  | .finite q =>
    let units : Int := if q < 0 then -⌊-q * 10 ^ 6 + 1 / 2⌋ else ⌊q * 10 ^ 6 + 1 / 2⌋
    if |units| < 10 ^ 20 then .ok (.value (units / 10 ^ 6)) else .error .invalidValue
  | _ => .error .invalidValue

/-! ## Tables -/

inductive WindowStatus where
  | opened
  | evaluated
  deriving DecidableEq, Repr

structure WindowRow where
  feedId : String
  windowId : String
  windowStart : Int
  windowEnd : Int
  status : WindowStatus
  deriving DecidableEq, Repr

structure WindowReadingRow where
  id : String
  windowId : String
  feedId : String
  source : String
  value : Numeric
  severity : Severity
  sourceTimestamp : Int
  arrivalTimestamp : Int
  isLate : Bool
  isDropped : Bool
  deriving DecidableEq, Repr

/-- What a window's readings decide. -/
structure Consensus where
  readingCount : Nat
  lateReadingCount : Nat
  value : Numeric
  severity : Severity
  inputHash : String
  deriving DecidableEq, Repr

structure ConsensusDecisionRow extends Consensus where
  feedId : String
  windowId : String
  windowStart : Int
  windowEnd : Int
  decidedAt : Int
  deriving DecidableEq, Repr

structure WindowState where
  windows : List WindowRow
  readings : List WindowReadingRow
  decisions : List ConsensusDecisionRow
  deriving DecidableEq, Repr

def WindowState.initial : WindowState := ⟨[], [], []⟩

/-! ### Statements -/

section Statements

variable (s : WindowState)

/-- Inserts the window, or sets the feed of the one that is there. -/
def upsertWindow (feedId : String) (bounds : WindowBounds) : Except SqlState WindowState := do
  let feed ← varchar 40 feedId
  match bounds.windowEnd with
  | none => .error .invalidValue
  | some windowEnd =>
    enforce (bounds.windowStart < windowEnd) .checkViolation
    let row : WindowRow := ⟨feed, bounds.windowId, bounds.windowStart, windowEnd, .opened⟩
    .ok { s with
      windows := upsert WindowRow.windowId row (fun w => { w with feedId := feed }) s.windows }

def markEvaluated (windowId : String) : WindowState :=
  { s with
    windows := updateWhere (fun w => decide (w.windowId = windowId))
      (fun w => { w with status := .evaluated }) s.windows }

def getWindow (windowId : String) : Option WindowRow :=
  findByKey WindowRow.windowId windowId s.windows

/-- The source has a reading in the window: the row that an insert for it conflicts with. -/
def hasReading (windowId source : String) : Bool :=
  s.readings.any fun r => decide (r.windowId = windowId ∧ varchar 40 source = .ok r.source)

/-- The row an insert stores, if every column accepts its value. -/
def readingRow (row : WindowReadingRow) (value : JsNumber) : Except SqlState WindowReadingRow := do
  let feed ← varchar 40 row.feedId
  let source ← varchar 40 row.source
  let number ← numericColumn value
  .ok { row with feedId := feed, source, value := number }

/-- Stores a reading. A conflict with a reading of the same source stores nothing, and any other
error of the statement is caught and looks the same. -/
def insertReading (row : WindowReadingRow) (value : JsNumber) : Option WindowState :=
  match readingRow row value with
  | .error _ => none
  | .ok stored =>
    if hasReading s row.windowId row.source then none
    else if s.readings.any fun r => decide (r.id = row.id) then none
    else some { s with readings := s.readings ++ [stored] }

/-- Records the decision on a window, in place of an earlier one. -/
def recordDecision (decision : ConsensusDecisionRow) : WindowState :=
  { s with
    decisions := upsert ConsensusDecisionRow.windowId decision
      (fun d => { d with toConsensus := decision.toConsensus, decidedAt := decision.decidedAt })
      s.decisions }

def getDecision (windowId : String) : Option ConsensusDecisionRow :=
  findByKey ConsensusDecisionRow.windowId windowId s.decisions

end Statements

/-! ## Consensus of a window -/

/-- What the service leaves to its platform. -/
structure WindowHost where
  /-- The digest of a text, in hexadecimal digits. -/
  sha256 : String → String
  localeCompare : String → String → Ordering
  /-- The order of `ORDER BY source`. -/
  collate : String → String → Ordering
  /-- The sort by `a.value - b.value`. -/
  sortByValue : List WindowReadingRow → List WindowReadingRow
  /-- What a column stores for `(a + b) / 2` of two values as the driver returns them. By default
  it returns the text of a `NUMERIC`, `+` joins two texts, and half of that is `NaN`. -/
  half : Numeric → Numeric → Numeric

section Evaluation

variable (host : WindowHost)

def getEligibleReadings (s : WindowState) (windowId : String) : List WindowReadingRow :=
  sortBy (fun a b => host.collate a.source b.source)
    (s.readings.filter fun r => decide (r.windowId = windowId) && !r.isDropped)

/-- The hash of the readings' ids, in the order of their code units. -/
def computeInputHash (readings : List WindowReadingRow) : String :=
  host.sha256 (",".intercalate (sortBy compareUnits (readings.map WindowReadingRow.id)))

/-- How many readings have each severity, in the order of their first readings. -/
def severityCounts (readings : List WindowReadingRow) : OrdMap Severity Nat :=
  readings.foldl (fun counts r => counts.set r.severity ((counts.get? r.severity).getD 0 + 1))
    .empty

/-- The median of the values, and the severity of most readings. -/
def computeMedianConsensus (readings : List WindowReadingRow) : Numeric × Severity :=
  let sorted := host.sortByValue readings
  let valueAt (i : Nat) : Numeric := (sorted[i]?.map WindowReadingRow.value).getD .nan
  let mid := sorted.length / 2
  let value := if sorted.length % 2 = 0 then host.half (valueAt (mid - 1)) (valueAt mid)
    else valueAt mid
  let ranked := sortBy (fun (a b : Severity × Nat) =>
    if b.2 ≠ a.2 then compare b.2 a.2 else host.localeCompare a.1.text b.1.text)
    (severityCounts readings).entries
  (value, (ranked.head?.map Prod.fst).getD .low)

/-- What `evaluateWindow` records for the eligible readings of a window. -/
def consensusOf (readings : List WindowReadingRow) : Consensus :=
  let inputHash := computeInputHash host readings
  if readings.length = 0 then ⟨0, 0, .value 0, .low, inputHash⟩
  else
    let (value, severity) := computeMedianConsensus host readings
    ⟨readings.length, (readings.filter WindowReadingRow.isLate).length, value, severity, inputHash⟩

end Evaluation

/-! ## The service -/

/-- A reading as `ingest` gets it. -/
structure WindowReading where
  coverageType : String
  source : Option String
  message : String
  value : JsNumber
  severity : Severity
  sourceTimestamp : Option Int

/-- The first non-empty text in square brackets. -/
def bracketed : List Char → Option (List Char)
  | [] => none
  | c :: text =>
    let inner := text.takeWhile (· ≠ ']')
    if c = '[' ∧ inner ≠ [] ∧ inner.length < text.length then some inner else bracketed text

def extractSource (message : String) : String :=
  match bracketed message.toList with
  | none => "unknown"
  | some inner => takeChars 40 (trim (String.ofList (inner.takeWhile (· ≠ ';'))))

example : extractSource "price [] low [ acme;v2 ] seen" = "acme" := by decide +kernel

def WindowReading.sourceName (reading : WindowReading) : String :=
  reading.source.getD (extractSource reading.message)

inductive IngestStatus where
  | accepted
  | lateAccepted
  | lateDropped
  | tooLate
  | duplicate

structure IngestResult where
  windowId : String
  status : IngestStatus
  isLate : Bool

structure ConsensusResult extends Consensus where
  windowId : String
  feedId : String
  empty : Bool
  decision : Option ConsensusDecisionRow
  deriving DecidableEq, Repr

section Service

variable (host : WindowHost) (configs : List FeedWindowConfig)

/-- The window of a reading that arrives at `arrivalTime`. -/
def windowOf (reading : WindowReading) (arrivalTime : Int) : Except JsError WindowBounds :=
  computeWindowBounds reading.coverageType (reading.sourceTimestamp.getD arrivalTime)
    (getFeedConfig reading.coverageType configs).windowDurationMs

/-- What `ingest` does once the row of the window is there. -/
def storeReading (s : WindowState) (reading : WindowReading) (arrivalTime : Int) (id : String)
    (windowId : String) (windowEnd : Int) : WindowState × IngestResult :=
  let config := getFeedConfig reading.coverageType configs
  let late := isWindowClosed windowEnd arrivalTime && isLateArrival arrivalTime windowEnd
  if isArrivedTooLate arrivalTime windowEnd config.allowedLatenessMs then
    (s, ⟨windowId, .tooLate, true⟩)
  else
    let isDropped := late && decide (config.lateArrivalPolicy = .drop)
    let row : WindowReadingRow :=
      { id, windowId, feedId := reading.coverageType
        source := reading.sourceName, value := .nan, severity := reading.severity
        sourceTimestamp := reading.sourceTimestamp.getD arrivalTime
        arrivalTimestamp := arrivalTime, isLate := late, isDropped }
    match insertReading s row reading.value with
    | none => (s, ⟨windowId, .duplicate, late⟩)
    | some s' =>
      if late && isDropped then (s', ⟨windowId, .lateDropped, true⟩)
      else if late then (s', ⟨windowId, .lateAccepted, true⟩)
      else (s', ⟨windowId, .accepted, false⟩)

/-- Stores a reading in its window; `id` is the identifier that the database draws for the row. -/
def ingest (s : WindowState) (reading : WindowReading) (arrivalTime : Int) (id : String) :
    Except Rejection (WindowState × IngestResult) :=
  match windowOf configs reading arrivalTime with
  | .error e => .error (.failed e.message)
  | .ok bounds =>
    match upsertWindow s reading.coverageType bounds, bounds.windowEnd with
    | .ok s', some windowEnd =>
      .ok (storeReading configs s' reading arrivalTime id bounds.windowId windowEnd)
    | .error state, _ => .error (.database state)
    | .ok _, none => .error (.database .invalidValue)

/-- Decides a window from its readings at the time `now`. -/
def evaluateWindow (s : WindowState) (windowId : String) (now : Int) :
    Except Rejection (WindowState × ConsensusResult) :=
  match getWindow s windowId with
  | none => .error (.failed ("Window " ++ windowId ++ " not found"))
  | some window =>
    let config := getFeedConfig window.feedId configs
    if !isWindowClosed window.windowEnd now && !config.bestEffort then
      .error (.failed ("Window " ++ windowId ++
        " is not yet closed — consensus can only be evaluated on closed windows"))
    else
      let readings := getEligibleReadings host s windowId
      let consensus := consensusOf host readings
      let recorded := recordDecision s
        { toConsensus := consensus, feedId := window.feedId, windowId
          windowStart := window.windowStart, windowEnd := window.windowEnd, decidedAt := now }
      .ok (markEvaluated recorded windowId,
        { toConsensus := consensus, windowId, feedId := window.feedId
          empty := decide (readings.length = 0), decision := getDecision recorded windowId })

/-- Evaluates a window again; the flag tells whether the recorded hash is the one of the inputs. -/
def replayWindow (s : WindowState) (windowId : String) (now : Int) :
    Except Rejection (WindowState × ConsensusResult × Bool) := do
  let prior := getDecision s windowId
  let (s', result) ← evaluateWindow host configs s windowId now
  .ok (s', result, prior.any fun d => decide (d.inputHash = result.inputHash))

/-! ## Runs -/

inductive WindowLabel where
  | ingest (reading : WindowReading) (arrivalTime : Int) (id : String)
  | evaluateWindow (windowId : String) (now : Int)
  | replayWindow (windowId : String) (now : Int)

/-- One call on the feed `feedId`. -/
def windowStep (feedId : String) (s : WindowState) : WindowLabel → Option WindowState
  | .ingest reading arrivalTime id =>
    if reading.coverageType = feedId then some (commit s (ingest configs s reading arrivalTime id))
    else none
  | .evaluateWindow windowId now => some (commit s (evaluateWindow host configs s windowId now))
  | .replayWindow windowId now => some (commit s (replayWindow host configs s windowId now))

abbrev WindowSteps (feedId : String) (s : WindowState) (l : WindowLabel) (s' : WindowState) :
    Prop :=
  windowStep host configs feedId s l = some s'

end Service

end Refract.Oracle.Windowing
