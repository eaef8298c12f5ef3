import Refract.Lib.Json

/-!
# The evidence buffer

`OracleEvidenceBuffer` numbers every piece of oracle evidence, hands it to the local spool and
keeps it until Postgres has it. What the spool refuses is lost, and a run of lost numbers is kept
as an open gap. The next `append` takes that gap along as a record of its own.

An `append` is cut here at its only `await`: it takes the open gap and its numbers, waits for the
spool, and then keeps its records or notes their loss. The spool works through its promise chain,
and what an `append` does with its answer runs before the next one is written, so the answers come
in the order of the calls.
-/

namespace Refract.Oracle.Evidence

open Lib

/-! ## Records -/

inductive EvidenceKind where
  | reading
  | decision

structure EvidenceEntry where
  kind : EvidenceKind
  coverageType : String
  value : JsNumber
  severity : String
  source : String
  recordedAt : Int
  payload : Json

/-- Marks a run of numbers that could not be made durable. -/
structure EvidenceGap where
  seq : Nat
  firstSeq : Nat
  lastSeq : Nat
  lostCount : Nat
  openedAt : Int
  closedAt : Int
  reason : String
  recordedAt : Int
  deriving DecidableEq, Repr

/-- `EvidenceRecord`; `isGap` tells the two apart by `kind`. -/
inductive EvidenceRecord where
  | sequenced (seq : Nat) (entry : EvidenceEntry)
  | gap (record : EvidenceGap)

def EvidenceRecord.seq : EvidenceRecord → Nat
  | .sequenced seq _ => seq
  | .gap record => record.seq

/-- The keys of `EVIDENCE_COVERAGE_TYPES`. -/
def evidenceCoverageTypes : List String :=
  ["StablecoinDepeg", "MarketCrash", "LiquidationShield", "SmartContractRisk", "FlightDelay"]

/-- `entry.coverageType in EVIDENCE_COVERAGE_TYPES`. -/
def EvidenceEntry.hasKnownType (entry : EvidenceEntry) : Bool :=
  decide (entry.coverageType ∈ evidenceCoverageTypes ++ objectPrototypeKeys)

/-- The message of `EvidenceNotDurableError`. -/
def notDurable (detail : String) : String :=
  "Oracle evidence could not be made durable: " ++ detail

/-! ## The buffer -/

/-- `EvidenceBufferStatus["openGap"]`. -/
structure OpenGap where
  firstSeq : Nat
  lastSeq : Nat
  lostCount : Nat
  since : Int
  reason : String

/-- An `append` that waits for the spool: the gap record it has taken along, and its entries, which
have the numbers from `firstSeq` on. -/
structure EvidenceAppend where
  gap : Option EvidenceGap
  firstSeq : Nat
  entries : List EvidenceEntry
  nonempty : entries ≠ []

namespace EvidenceAppend

/-- `seqs[seqs.length - 1]`. -/
def lastSeq (call : EvidenceAppend) : Nat := call.firstSeq + call.entries.length - 1

def seqs (call : EvidenceAppend) : List Nat := List.range' call.firstSeq call.entries.length

/-- The records that are handed to the spool. -/
def records (call : EvidenceAppend) : List EvidenceRecord :=
  call.gap.toList.map EvidenceRecord.gap ++
    (call.seqs.zip call.entries).map fun numbered => .sequenced numbered.1 numbered.2

/-- The first number that the call has taken. -/
def start (call : EvidenceAppend) : Nat :=
  match call.gap with
  | some gap => gap.seq
  | none => call.firstSeq

end EvidenceAppend

/-- The buffer, with the calls of `append` that wait for the spool (oldest first), the records that
the spool has accepted in this process, and the numbers that have been assigned in it. -/
structure OracleEvidenceBuffer where
  pending : List EvidenceRecord
  lastSeq : Nat
  lastStoredSeq : Nat
  opened : Bool
  openGap : Option OpenGap
  lostTotal : Nat
  inFlight : List EvidenceAppend
  accepted : List EvidenceRecord
  assigned : List Nat

namespace OracleEvidenceBuffer

/-- A buffer before `start`. -/
def initial : OracleEvidenceBuffer where
  pending := []
  lastSeq := 0
  lastStoredSeq := 0
  opened := false
  openGap := none
  lostTotal := 0
  inFlight := []
  accepted := []
  assigned := []

variable (b : OracleEvidenceBuffer)

def noteLoss (firstSeq lastSeq count : Nat) (reason : String) (now : Int) : OracleEvidenceBuffer :=
  { b with
    lostTotal := b.lostTotal + count
    openGap := some <|
      match b.openGap with
      | some gap =>
        { gap with
          lastSeq := max gap.lastSeq lastSeq
          lostCount := gap.lostCount + count
          reason }
      | none => ⟨firstSeq, lastSeq, count, now, reason⟩ }

/-- The record of an open gap, with the next number. -/
def closeGapRecord (gap : OpenGap) (now : Int) : EvidenceGap where
  seq := b.lastSeq + 1
  firstSeq := gap.firstSeq
  lastSeq := gap.lastSeq
  lostCount := gap.lostCount
  openedAt := gap.since
  closedAt := now
  reason := gap.reason
  recordedAt := now

/-- `start`, once the spool has been opened. -/
def start (pending : List EvidenceRecord) (highWaterSeq discardedLines : Nat) (now : Int) :
    OracleEvidenceBuffer :=
  let opened : OracleEvidenceBuffer :=
    { b with
      pending
      lastSeq := highWaterSeq
      lastStoredSeq :=
        match pending with
        | [] => highWaterSeq
        | first :: _ => first.seq - 1
      opened := true }
  if discardedLines = 0 then opened
  else opened.noteLoss (highWaterSeq + 1) highWaterSeq discardedLines
    "unreadable spool lines discarded on recovery" now

/-- The open gap gets the next number, and the entries the numbers after it. -/
def nextAppend (entries : List EvidenceEntry) (nonempty : entries ≠ []) (now : Int) :
    EvidenceAppend :=
  match b.openGap with
  | some gap => ⟨some (b.closeGapRecord gap now), b.lastSeq + 2, entries, nonempty⟩
  | none => ⟨none, b.lastSeq + 1, entries, nonempty⟩

/-- `append` up to the call of the spool. -/
def issue (entries : List EvidenceEntry) (nonempty : entries ≠ []) (now : Int) :
    OracleEvidenceBuffer :=
  let call := b.nextAppend entries nonempty now
  { b with
    openGap := none
    lastSeq := call.lastSeq
    inFlight := b.inFlight ++ [call]
    assigned := b.assigned ++ call.records.map EvidenceRecord.seq }

/-- `append`: what it throws, or the buffer once it waits for the spool. -/
def append (b : OracleEvidenceBuffer) (entries : List EvidenceEntry) (now : Int) :
    Except String OracleEvidenceBuffer :=
  if !b.opened then .error (notDurable "evidence buffer not started")
  else if hempty : entries = [] then .ok b
  else
    match entries.find? fun entry => !entry.hasKnownType with
    | some entry =>
      .error ("Unknown coverageType \"" ++ entry.coverageType ++ "\" for oracle evidence")
    | none => .ok (b.issue entries hempty now)

/-- The gap that an `append` has taken along is put back, with the number of its record, whatever
gap is open by then. -/
def reopen (taken : Option EvidenceGap) : OracleEvidenceBuffer :=
  { b with
    openGap :=
      match taken with
      | some gap => some ⟨gap.firstSeq, gap.seq, gap.lostCount + 1, gap.openedAt, gap.reason⟩
      | none => b.openGap }

/-- `append` after the spool has accepted its records. -/
def keep (call : EvidenceAppend) : OracleEvidenceBuffer :=
  { b with
    pending := b.pending ++ call.records
    accepted := b.accepted ++ call.records }

/-- `append` after the spool has refused its records. -/
def lose (call : EvidenceAppend) (reason : String) (now : Int) : OracleEvidenceBuffer :=
  (b.reopen call.gap).noteLoss call.firstSeq call.lastSeq call.entries.length reason now

/-- One round of `drain`: Postgres has stored a batch or not. Nothing but `drain` takes records from
the front, so the batch is still there when the answer comes. -/
def drain (batchSize : Nat) (stored : Bool) : OracleEvidenceBuffer :=
  match stored, (b.pending.take batchSize).getLast? with
  | true, some last =>
    { b with pending := b.pending.drop batchSize, lastStoredSeq := last.seq }
  | _, _ => b

end OracleEvidenceBuffer

/-! ## Its steps -/

/-- What happens to the buffer. `answered` is the spool's answer to the oldest call that waits. -/
inductive BufferLabel where
  | started (pending : List EvidenceRecord) (highWaterSeq discardedLines : Nat) (now : Int)
  | append (entries : List EvidenceEntry) (now : Int)
  | answered (outcome : Except String Unit) (now : Int)
  | drained (stored : Bool)

/-- The step of a label. A buffer is started once, and a call of `append` that throws changes
nothing. -/
def bufferStep (batchSize : Nat) (b : OracleEvidenceBuffer) :
    BufferLabel → Option OracleEvidenceBuffer
  | .started pending highWaterSeq discardedLines now =>
    if b.opened then none else some (b.start pending highWaterSeq discardedLines now)
  | .append entries now =>
    match b.append entries now with
    | .ok b' => some b'
    | .error _ => some b
  | .answered outcome now =>
    match b.inFlight with
    | [] => none
    | call :: rest =>
      match outcome with
      | .ok () => some ({ b with inFlight := rest }.keep call)
      | .error reason => some ({ b with inFlight := rest }.lose call reason now)
  | .drained stored => some (b.drain batchSize stored)

abbrev BufferSteps (batchSize : Nat) (b : OracleEvidenceBuffer) (l : BufferLabel)
    (b' : OracleEvidenceBuffer) : Prop :=
  bufferStep batchSize b l = some b'

end Refract.Oracle.Evidence
