import Refract.Lib.Runs
import Refract.Oracle.OracleEncoding
import Refract.Oracle.OracleTrust
import Refract.Stellar.SorobanConfirmation

/-!
# Publishing oracle readings

`OraclePublisherService.maybePublish` decides whether a reading is worth a transaction and sends
one: it looks up the relayer's account, prepares, signs and sends the transaction and polls for it,
each within the deadline of the feed. It remembers the last value that it saw confirmed; a reading
with that value is reported as confirmed at once. One publication runs per coverage type.

A publication is cut at its awaits; a timer can end it at any of them. Each piece of code between
two awaits gets its readings of `Date.now()` as an argument (`Clock`). The transaction goes on by
itself: a node may accept it and it may land whether or not the publication still waits for it.
-/

namespace Refract.Oracle

open Lib Refract.Stellar

/-! ## Configuration, readings, records -/

inductive PublishMode where
  | everyPoll
  | onChange
  deriving DecidableEq, Repr

structure OraclePublisherConfig where
  /-- The oracle contract and the relayer's secret are set. -/
  configured : Bool
  publishMode : PublishMode
  minIntervalMs : ℚ
  initialIntervalMs : ℚ
  backoffMultiplier : ℚ
  maxIntervalMs : ℚ
  jitterRatio : ℚ
  settlementDeadlineMs : ℚ

/-- The fields of a reading that are read. -/
structure PublishReading where
  coverageType : String
  value : JsNumber
  feedId : Option String
  degraded : Bool

structure OraclePublishRecord where
  coverageType : String
  scaledValue : Int
  txHash : Option String
  confirmed : Bool
  outcome : Option ConfirmationOutcome
  error : Option String
  attemptedAt : ℚ

/-- The readings of the clock by one piece of code, in order. -/
abbrev Clock := Nat → ℚ

/-- `Date.now() >= deadlineAt`, if there is a deadline. -/
def deadlineExpired (deadlineAt : Option ℚ) (now : ℚ) : Bool :=
  deadlineAt.any fun deadline => 0 ≤ now - deadline

/-! ## One publication -/

/-- What a publication awaits. -/
inductive PublicationStage where
  | account
  | prepare
  | send
  | confirm (poll : Poll)
  deriving DecidableEq, Repr

structure Publication where
  coverageType : String
  scaled : Int
  feedId : String
  deadlineAt : Option ℚ
  attemptedAt : ℚ
  stage : PublicationStage

inductive PublicationProgress where
  | waits (p : Publication)
  | ends (record : OraclePublishRecord)

/-- What a publication is answered: by the account lookup, the preparation, the send and the poll,
or by the timer of its deadline. An error is what the call, or the code that follows it, throws. -/
inductive PublicationAnswer where
  | account (reply : Except String Unit)
  | prepared (reply : Except String Unit)
  | sent (reply : Except String SendReply)
  | probed (reply : Except String GetReply) (random : ℚ)
  | slept
  | deadline

namespace Publication

variable (p : Publication)

/-- The record of a publication that is not confirmed. -/
def base : OraclePublishRecord :=
  ⟨p.coverageType, p.scaled, none, false, none, none, p.attemptedAt⟩

def failed (error : String) : OraclePublishRecord := { p.base with error := some error }

def expiredDuring (what : String) : OraclePublishRecord :=
  p.failed ("Feed latency budget expired during " ++ what)

/-- `withinDeadline`: awaits an operation, unless no time is left. -/
def within (what : String) (now : ℚ) (stage : PublicationStage) : PublicationProgress :=
  if p.deadlineAt.any fun deadline => deadline - now ≤ 0 then .ends (p.expiredDuring what)
  else .waits { p with stage }

def begin (clock : Clock) : PublicationProgress :=
  if deadlineExpired p.deadlineAt (clock 0) then
    .ends (p.failed "Feed publication deadline expired before RPC account lookup")
  else p.within "publication" (clock 1) .account

def accountAnswered (reply : Except String Unit) (clock : Clock) : PublicationProgress :=
  match reply with
  | .error message => .ends (p.failed message)
  | .ok _ =>
    if deadlineExpired p.deadlineAt (clock 0) then
      .ends (p.failed "Feed publication deadline expired before transaction preparation")
    else
      -- The transaction has to be valid for a whole second, and is for half a minute at most.
      let remainingMs := p.deadlineAt.elim 30000 fun deadline => deadline - clock 1
      if min 30 ⌊remainingMs / 1000⌋ < 1 then
        .ends (p.failed "Insufficient latency budget remains for an on-chain transaction")
      else p.within "publication" (clock 2) .prepare

def prepareAnswered (reply : Except String Unit) (clock : Clock) : PublicationProgress :=
  match reply with
  | .error message => .ends (p.failed message)
  | .ok _ =>
    if deadlineExpired p.deadlineAt (clock 0) then
      .ends (p.failed "Feed publication deadline expired before transaction submission")
    else p.within "publication" (clock 1) .send

def pollOptions (config : OraclePublisherConfig) (deadlineMs : ℚ) : PollOptions :=
  { defaultConfirmationPoll with
    initialIntervalMs := config.initialIntervalMs
    backoffMultiplier := config.backoffMultiplier
    maxIntervalMs := config.maxIntervalMs
    jitterRatio := config.jitterRatio
    deadlineMs }

def sendAnswered (config : OraclePublisherConfig) (reply : Except String SendReply)
    (clock : Clock) : PublicationProgress :=
  match reply with
  | .error message => .ends (p.failed message)
  | .ok reply =>
    match reply.status with
    | .error | .tryAgainLater => .ends { p.base with
        txHash := some reply.hash
        error := some ("Submission not accepted: " ++ reply.status.text) }
    | .pending | .duplicate =>
      let deadlineMs := p.deadlineAt.elim config.settlementDeadlineMs fun deadline =>
        min config.settlementDeadlineMs (deadline - clock 0)
      if deadlineMs ≤ 0 then .ends { p.base with
        txHash := some reply.hash
        error := some "Feed publication was submitted but its confirmation deadline expired" }
      else p.within "confirmation" (clock 1)
        (.confirm (Poll.start (pollOptions config deadlineMs) reply.hash (clock 2)))

/-- The poll has ended. -/
def confirmation (result : ConfirmationResult) (now : ℚ) : OraclePublishRecord :=
  if deadlineExpired p.deadlineAt now then { p.base with
    txHash := some result.txHash
    outcome := some result.outcome
    error := some "Feed publication confirmation arrived after its deadline" }
  else { p.base with
    txHash := some result.txHash
    confirmed := result.confirmed
    outcome := some result.outcome
    error := result.error }

def probeAnswered (config : OraclePublisherConfig) (poll : Poll) (reply : Except String GetReply)
    (random : ℚ) (clock : Clock) : PublicationProgress :=
  match poll.answered (pollOptions config 0) reply (clock 0) random with
  | .waits poll => .waits { p with stage := .confirm poll }
  | .ends result => .ends (p.confirmation result (clock 1))

/-- The timer of `withinDeadline` has rejected. -/
def timedOut : OraclePublishRecord :=
  match p.stage with
  | .account | .prepare | .send => p.expiredDuring "publication"
  | .confirm _ => p.expiredDuring "confirmation"

/-- A publication goes on with an answer to what it awaits. -/
def answer (config : OraclePublisherConfig) (answer : PublicationAnswer) (clock : Clock) :
    Option PublicationProgress :=
  match p.stage, answer with
  | .account, .account reply => some (p.accountAnswered reply clock)
  | .prepare, .prepared reply => some (p.prepareAnswered reply clock)
  | .send, .sent reply => some (p.sendAnswered config reply clock)
  | .confirm poll, .probed reply random =>
    if poll.sleepMs = none then some (p.probeAnswered config poll reply random clock) else none
  | .confirm poll, .slept =>
    if poll.sleepMs = none then none
    else some (.waits { p with stage := .confirm (poll.wake (pollOptions config 0)) })
  | _, .deadline => if p.deadlineAt.isSome then some (.ends p.timedOut) else none
  | _, _ => none

end Publication

/-! ## The service and the ledger -/

/-- The transaction of a publication, `update_reading(coverage_type, value)`. -/
structure UpdateTx where
  coverageType : String
  value : Int
  fate : TxFate

inductive OraclePublisherEvent where
  /-- A value lands on chain. -/
  | landed (coverageType : String) (value : Int)
  /-- `recordPublication(feedId, true)` for a reading with this scaled value. -/
  | confirmed (feedId coverageType : String) (value : Int)
  /-- `recordPublication(feedId, false, reason)` -/
  | unconfirmed (feedId : String) (reason : Option String)
  deriving DecidableEq, Repr

/-- The service, its trust service if it has one, the publications that run, the transactions of all
publications so far, and what has happened. The coverage types in flight are those of the
publications that run. -/
structure OraclePublisherState where
  lastScaled : OrdMap String Int
  lastPublishedAt : OrdMap String ℚ
  trust : Option FeedStatuses
  running : OrdMap Nat Publication
  txs : OrdMap Nat UpdateTx
  calls : Nat
  history : List OraclePublisherEvent

namespace OraclePublisherState

def start (trusted : Bool) : OraclePublisherState :=
  ⟨.empty, .empty, if trusted then some .empty else none, .empty, .empty, 0, []⟩

variable (s : OraclePublisherState)

def inFlight (coverageType : String) : Bool :=
  s.running.values.any fun p => p.coverageType = coverageType

def recordConfirmed (feedId coverageType : String) (value : Int) (now : ℚ) :
    OraclePublisherState :=
  match s.trust with
  | none => s
  | some trust => { s with
      trust := some (trust.recordPublication feedId true none now)
      history := s.history ++ [OraclePublisherEvent.confirmed feedId coverageType value] }

def recordUnconfirmed (feedId : String) (reason : Option String) (now : ℚ) :
    OraclePublisherState :=
  match s.trust with
  | none => s
  | some trust => { s with
      trust := some (trust.recordPublication feedId false reason now)
      history := s.history ++ [OraclePublisherEvent.unconfirmed feedId reason] }

/-- The end of `maybePublish`, after its publication. -/
def settle (p : Publication) (record : OraclePublishRecord) (clock : Clock) :
    OraclePublisherState :=
  if record.confirmed then
    { s with
      lastScaled := s.lastScaled.set p.coverageType p.scaled
      lastPublishedAt := s.lastPublishedAt.set p.coverageType (clock 10) }.recordConfirmed
      p.feedId p.coverageType p.scaled (clock 11)
  else
    s.recordUnconfirmed p.feedId (record.error.or (record.outcome.map (·.text))) (clock 11)

/-- The publication `id` waits for something else or has ended. When it begins to wait for the send,
its transaction is on the way. -/
def advance (id : Nat) (p : Publication) (clock : Clock) :
    PublicationProgress → OraclePublisherState
  | .waits p' => { s with
      running := s.running.set id p'
      txs := if p'.stage = .send then s.txs.set id ⟨p'.coverageType, p'.scaled, .unknown⟩
        else s.txs }
  | .ends record => { s with running := s.running.delete id }.settle p record clock

/-- A new publication. -/
def publish (p : Publication) (clock : Clock) : OraclePublisherState :=
  { s with calls := s.calls + 1 }.advance s.calls p clock
    (p.begin fun n => clock (n + 5))

/-- `maybePublish` once the reading is scaled. -/
def publishScaled (config : OraclePublisherConfig) (coverageType feedId : String) (scaled : Int)
    (deadlineAt : Option ℚ) (clock : Clock) : OraclePublisherState :=
  let lastAt := (s.lastPublishedAt.get? coverageType).getD 0
  -- An unchanged value is reported before anything is said about the interval or what is in flight.
  let unchanged := s.lastScaled.get? coverageType = some scaled
  let s := if unchanged then s.recordConfirmed feedId coverageType scaled (clock 3) else s
  if unchanged ∧ config.publishMode = .onChange then s
  else if clock 2 - lastAt < config.minIntervalMs then s
  else if s.inFlight coverageType then s
  else s.publish ⟨coverageType, scaled, feedId, deadlineAt, clock 4, .account⟩ clock

def maybePublish (config : OraclePublisherConfig) (reading : PublishReading)
    (deadlineAt : Option ℚ) (clock : Clock) : OraclePublisherState :=
  let feedId := reading.feedId.getD reading.coverageType
  if reading.degraded then
    s.recordUnconfirmed feedId (some "provider reading is degraded") (clock 0)
  else if s.trust.any fun trust => !trust.canPublish feedId (clock 0) then s
  else if deadlineExpired deadlineAt (clock 1) then
    s.recordUnconfirmed feedId (some "publication deadline expired") (clock 1)
  else if !config.configured then s
  else
    match scaleOracleValue reading.coverageType reading.value with
    | .error _ => s
    | .ok scaled => s.publishScaled config reading.coverageType feedId scaled deadlineAt clock

/-- The transaction of a publication has landed with success. -/
def landed (id : Nat) : Bool := (s.txs.get? id).any fun tx => tx.fate = .succeeded

end OraclePublisherState

inductive OraclePublisherLabel where
  | maybePublish (reading : PublishReading) (deadlineAt : Option ℚ) (clock : Clock)
  /-- An observation of a feed is recorded. -/
  | observe (feedId : String) (healthy : Bool) (reason : Option String) (observedAt : ℚ)
  | answer (id : Nat) (answer : PublicationAnswer) (clock : Clock)
  /-- A node accepts the transaction of a publication. -/
  | accept (id : Nat)
  | land (id : Nat) (succeeds : Bool)

/-- The node answers truthfully. -/
def AnswersTruthfully (tx : Option UpdateTx) : PublicationAnswer → Prop
  | .sent reply => ∀ t ∈ tx, SendTruthful t.fate reply
  | .probed reply _ => ∀ t ∈ tx, GetTruthful t.fate reply
  | .account _ | .prepared _ | .slept | .deadline => True

instance (tx : Option UpdateTx) (answer : PublicationAnswer) :
    Decidable (AnswersTruthfully tx answer) := by
  unfold AnswersTruthfully
  split <;> infer_instance

def oraclePublisherStep (config : OraclePublisherConfig) (s : OraclePublisherState) :
    OraclePublisherLabel → Option OraclePublisherState
  | .maybePublish reading deadlineAt clock => some (s.maybePublish config reading deadlineAt clock)
  | .observe feedId healthy reason observedAt =>
    match s.trust with
    | none => none
    | some trust =>
      match trust.recordObservation feedId healthy reason observedAt with
      -- The caller gets the error, and nothing is recorded.
      | .error _ => some s
      | .ok trust => some { s with trust := some trust }
  | .answer id answer clock =>
    match s.running.get? id with
    | none => none
    | some p =>
      if AnswersTruthfully (s.txs.get? id) answer then
        (p.answer config answer clock).map (s.advance id p clock)
      else none
  | .accept id =>
    match s.txs.get? id with
    | some ⟨coverageType, value, .unknown⟩ =>
      some { s with txs := s.txs.set id ⟨coverageType, value, .accepted⟩ }
    | _ => none
  | .land id succeeds =>
    match s.txs.get? id with
    | some ⟨coverageType, value, .accepted⟩ =>
      if succeeds then some { s with
        txs := s.txs.set id ⟨coverageType, value, .succeeded⟩
        history := s.history ++ [OraclePublisherEvent.landed coverageType value] }
      else some { s with txs := s.txs.set id ⟨coverageType, value, .failed⟩ }
    | _ => none

/-- The service goes on, or the ledger does. -/
abbrev OraclePublisherSteps (config : OraclePublisherConfig) (s : OraclePublisherState)
    (l : OraclePublisherLabel) (s' : OraclePublisherState) : Prop :=
  oraclePublisherStep config s l = some s'

end Refract.Oracle
