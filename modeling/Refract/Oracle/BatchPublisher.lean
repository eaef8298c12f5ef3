import Refract.Lib.Programs
import Refract.Lib.Runs
import Refract.Oracle.PublishQueue

/-!
# The batch publisher

`OracleBatchPublisherService` of `oracle-batch-publisher.service.ts`. A batch in flight is a program
that asks for what the code awaits: a statement on the queue, a lookup of a transaction, a
submission, and a random number. The functions of the source take what follows their return as an
argument; `process` and `publishOrRelease`, which call themselves on shorter batches, are bounded by
the length of the batch.

A run interleaves enqueues, claims, the answers to the batches in flight, transactions that land on
chain, and restarts of the process, which lose the batches in flight but neither the queue nor the
transactions that were sent. Metrics, backpressure and logging are left out; the timer and the
bookkeeping around it only decide when a claim is made.
-/

namespace Refract.Oracle

open Lib

/-! ## Questions and answers -/

structure PublisherOptions where
  maxBatchSize : Nat
  maxInFlight : Nat
  maxPerFeedPerBatch : Nat
  baseBackoffMs : ℚ
  maxBackoffMs : ℚ
  maxAttempts : Nat

/-- The options of an empty environment. -/
def defaultPublisherOptions : PublisherOptions where
  maxBatchSize := 20
  maxInFlight := 2
  maxPerFeedPerBatch := 5
  baseBackoffMs := 1000
  maxBackoffMs := 60000
  maxAttempts := 10

structure BatchSubmitResult where
  txHash : String
  ledger : Option Int

inductive TxLookup where
  | success (ledger : Option Int)
  | pending
  | failed
  | notFound

/-- What `submit` throws: a `BatchTooLargeError`, an `AmbiguousSubmitError`, or something else. -/
inductive SubmitError where
  | batchTooLarge (message : String)
  | ambiguous (message txHash : String)
  | other (message : String)

def SubmitError.message : SubmitError → String
  | batchTooLarge message | ambiguous message _ | other message => message

/-- The hash of an ambiguous submission. -/
def SubmitError.txHash : SubmitError → Option String
  | ambiguous _ txHash => some txHash
  | batchTooLarge _ | other _ => none

/-- What a batch in flight awaits. A lookup is asked while its batch is being reconciled. -/
inductive PublisherAsk where
  | statement (statement : QueueStatement)
  | lookup (batch : List PendingDecision) (txHash : String)
  | submit (batch : List PendingDecision)
  | random

/-- A lookup and a submission may throw. -/
abbrev PublisherAnswer : PublisherAsk → Type
  | .statement _ => Unit
  | .lookup _ _ => Except String TxLookup
  | .submit _ => Except SubmitError BatchSubmitResult
  | .random => ℚ

abbrev PublisherProgram := Program PublisherAsk PublisherAnswer

/-- Awaits a statement on the queue. -/
def andThen (statement : QueueStatement) (next : PublisherProgram) : PublisherProgram :=
  .ask (.statement statement) fun _ => next

/-! ## Size and fee errors -/

/-- What stands after each occurrence of a text. -/
def occurrences (text : String) (message : List Char) : List (List Char) :=
  message.tails.filterMap fun rest =>
    if text.toList.isPrefixOf rest then some (rest.drop text.toList.length) else none

def hasText (text : String) (message : List Char) : Bool := !(occurrences text message).isEmpty

/-- What `.` does not match. -/
def isLineTerminator (c : Char) : Bool := c.toNat ∈ [0xA, 0xD, 0x2028, 0x2029]

/-- One of the texts follows on the same line. -/
def laterOnLine (texts : List String) (rest : List Char) : Bool :=
  texts.any fun text => hasText text (rest.takeWhile fun c => !isLineTerminator c)

/-- `/exceeds? .*(size|limit)|tx_?too_?big|resource limit|insufficient.?fee|fee.*(exceed|ceiling)/i`
-/
def isSizeOrFeeMessage (message : String) : Bool :=
  let text := message.toList.map Char.toLower
  (["exceed ", "exceeds "].any fun verb =>
      (occurrences verb text).any (laterOnLine ["size", "limit"])) ||
    (["txtoobig", "tx_toobig", "txtoo_big", "tx_too_big", "resource limit"].any (hasText · text)) ||
    ((occurrences "insufficient" text).any fun rest =>
      "fee".toList.isPrefixOf rest ||
        (rest.head?.any (!isLineTerminator ·) && "fee".toList.isPrefixOf (rest.drop 1))) ||
    (occurrences "fee" text).any (laterOnLine ["exceed", "ceiling"])

/-- The error makes the publisher split the batch. -/
def SubmitError.isSizeOrFeeError (e : SubmitError) : Bool :=
  match e with
  | .batchTooLarge _ => true
  | .ambiguous message _ | .other message => isSizeOrFeeMessage message

/-! ## Retrying -/

/-- Full-jitter exponential backoff: uniform in [cap/2, cap]. -/
def jitteredBackoff (attempt : Nat) (baseMs maxMs random : ℚ) : ℚ :=
  let cap := min maxMs (baseMs * 2 ^ (attempt - 1))
  mathRound (cap / 2 + random * (cap / 2))

def idsOf (batch : List PendingDecision) : List Nat := batch.map (·.id)

/-- The decisions of a batch that have used up their attempts. -/
def exhausted (options : PublisherOptions) (batch : List PendingDecision) : List PendingDecision :=
  batch.filter fun d => options.maxAttempts ≤ d.attempts

variable (options : PublisherOptions)

/-- Dead-letters what is exhausted and releases the rest with a backoff. -/
def retryLater (batch : List PendingDecision) (reason : String) (countAttempt : Bool)
    (txHash : Option String) (next : PublisherProgram) : PublisherProgram :=
  let dead := if countAttempt then exhausted options batch else []
  let retryable := batch.filter (· ∉ dead)
  let rest : PublisherProgram :=
    if retryable = [] then next
    else .ask .random fun random =>
      let attempts := ((retryable.map (·.attempts)).max?).getD 0
      let delay := jitteredBackoff attempts options.baseBackoffMs options.maxBackoffMs random
      andThen (.release (idsOf retryable) delay reason txHash) next
  if dead = [] then rest else andThen (.markFailed (idsOf dead) reason) rest

/-! ## Reconciling -/

/-- The hashes of earlier ambiguous attempts. -/
def knownHashes (batch : List PendingDecision) : List String :=
  (batch.filterMap fun d => d.txHash.filter (· ≠ "")).eraseDups

/-- The loop of `reconcile` over the hashes; `done` are the decisions found on chain. -/
def reconcileHashes (options : PublisherOptions) (batch : List PendingDecision) :
    List String → List Nat → (Option (List PendingDecision) → PublisherProgram) → PublisherProgram
  | [], done, next => next (some (batch.filter (·.id ∉ done)))
  | hash :: hashes, done, next =>
    .ask (.lookup batch hash) fun
      | .error message =>
        retryLater options batch ("reconcile " ++ hash ++ " failed: " ++ message) true none
          (next none)
      | .ok .pending =>
        retryLater options batch ("tx " ++ hash ++ " still pending") false none (next none)
      | .ok (.success ledger) =>
        let ids := idsOf (batch.filter (·.txHash = some hash))
        andThen (.markPublished ids hash ledger)
          (reconcileHashes options batch hashes (done ++ ids) next)
      | .ok .failed | .ok .notFound => reconcileHashes options batch hashes done next

/-- Checks decisions with a hash of an ambiguous attempt on chain; goes on with those that still
need submitting, or with none if the batch was deferred. -/
def reconcile (batch : List PendingDecision)
    (next : Option (List PendingDecision) → PublisherProgram) : PublisherProgram :=
  if knownHashes batch = [] then next (some batch)
  else reconcileHashes options batch (knownHashes batch) [] next

/-! ## Submitting -/

inductive SplitOutcome where
  | published
  | deferred

def releasedReason : String := "released: earlier split half did not confirm"

/-- `Math.ceil(length / 2)`. -/
def midpoint (batch : List PendingDecision) : Nat := (batch.length + 1) / 2

/-- Submits a split half; splits it further on a size or fee error. -/
def publishOrRelease (options : PublisherOptions) :
    Nat → List PendingDecision → (SplitOutcome → PublisherProgram) → PublisherProgram
  | 0, _, _ => .done
  | bound + 1, batch, next =>
    .ask (.submit batch) fun
      | .ok result =>
        andThen (.markPublished (idsOf batch) result.txHash result.ledger) (next .published)
      | .error e =>
        if e.isSizeOrFeeError then
          if 1 < batch.length then
            publishOrRelease options bound (batch.take (midpoint batch)) fun
              | .deferred =>
                andThen (.release (idsOf (batch.drop (midpoint batch))) 0 releasedReason none)
                  (next .deferred)
              | .published => publishOrRelease options bound (batch.drop (midpoint batch)) next
          else
            -- Dead-lettered; the rest of the feed is not blocked.
            andThen (.markFailed (idsOf (batch.take 1)) e.message) (next .published)
        else retryLater options batch e.message true e.txHash (next .deferred)

/-- Publishes `head` and then processes `tail`; if `head` does not confirm, `tail` is released. -/
def processSplit (process : List PendingDecision → PublisherProgram)
    (head tail : List PendingDecision) : PublisherProgram :=
  publishOrRelease options head.length head fun
    | .published => process tail
    | .deferred => andThen (.release (idsOf tail) 0 releasedReason none) .done

def handleFailure (process : List PendingDecision → PublisherProgram) (batch : List PendingDecision)
    (e : SubmitError) : PublisherProgram :=
  if e.isSizeOrFeeError then
    if batch.length = 1 then andThen (.markFailed (idsOf batch) e.message) .done
    else processSplit options process (batch.take (midpoint batch)) (batch.drop (midpoint batch))
  else retryLater options batch e.message true e.txHash .done

/-- Publishes an ordered batch. -/
def process (options : PublisherOptions) : Nat → List PendingDecision → PublisherProgram
  | 0, _ => .done
  | bound + 1, batch =>
    reconcile options batch fun
      | none => .done
      | some batch =>
        if batch = [] then .done
        else .ask (.submit batch) fun
          | .ok result =>
            andThen (.markPublished (idsOf batch) result.txHash result.ledger) .done
          | .error e => handleFailure options (process options bound) batch e

/-! ## State and steps -/

/-- A batch in flight: its feeds, what it still has to do, and the hash of the transaction of a
submission it awaits. -/
structure Task where
  feeds : List String
  program : PublisherProgram
  sent : Option String

/-- A transaction that was sent. -/
structure SentTx where
  hash : String
  ids : List Nat
  landed : Bool

inductive PublishEvent where
  | enqueued (id : Nat) (feed : String)
  | landed (id : Nat)
  | failed (id : Nat)
  deriving DecidableEq, Repr

/-- The queue, the batches in flight of the running process, and the chain. The transactions in
`dead` never land. -/
structure PublisherState where
  queue : PublishQueue
  tasks : List Task
  txs : List SentTx
  dead : List String
  trace : List PublishEvent

def PublisherState.start : PublisherState := ⟨.empty, [], [], [], []⟩

/-- What happens next. A tick reads the feeds in flight before its claim is executed, so the feeds
of batches that have `ended` meanwhile are still excluded. -/
inductive PublisherLabel where
  | enqueue (decision : NewDecision) (now : ℚ)
  | claim (ended : List String) (now : ℚ)
  | send (task : Nat) (txHash : String)
  | land (txHash : String)
  | submitted (task : Nat) (answer : Except SubmitError BatchSubmitResult)
  | lookedUp (task : Nat) (answer : Except String TxLookup)
  | executed (task : Nat) (now : ℚ)
  | drawn (task : Nat) (random : ℚ)
  | finished (task : Nat)
  | restart

/-- `feedsInFlight`. -/
def PublisherState.feedsInFlight (s : PublisherState) : List String := s.tasks.flatMap (·.feeds)

/-- The events of a statement: dead-lettering is noted. -/
def QueueStatement.events : QueueStatement → List PublishEvent
  | .markFailed ids _ => ids.map .failed
  | .markPublished .. | .release .. => []

/-- The transactions after one of them has landed. -/
def landTx (txHash : String) (txs : List SentTx) : List SentTx :=
  updateWhere (fun tx => decide (tx.hash = txHash)) (fun tx => { tx with landed := true }) txs

/-- A submission that failed for certain does not reach the chain any more. -/
def deadAfterSubmit (txHash : String) (answer : Except SubmitError BatchSubmitResult)
    (dead : List String) : List String :=
  match answer with
  | .error (.batchTooLarge _) | .error (.other _) => txHash :: dead
  | .ok _ | .error (.ambiguous _ _) => dead

/-- A transaction that failed or is unknown to the chain does not reach it any more. -/
def deadAfterLookup (txHash : String) (answer : Except String TxLookup) (dead : List String) :
    List String :=
  match answer with
  | .ok .failed | .ok .notFound => txHash :: dead
  | .ok (.success _) | .ok .pending | .error _ => dead

/-- One step of the process, its environment or the chain; `none` if it cannot be taken. -/
def publisherStep (s : PublisherState) : PublisherLabel → Option PublisherState
  | .enqueue decision now =>
    let (queue, inserted) := s.queue.enqueue decision now
    some { s with
      queue
      trace := s.trace ++ if inserted then [.enqueued s.queue.nextId decision.feed] else [] }
  | .claim ended now =>
    if s.tasks.length < options.maxInFlight then
      let (queue, batch) := s.queue.claim options.maxBatchSize options.maxPerFeedPerBatch
        (s.feedsInFlight ++ ended) now
      if batch = [] then some s
      else
        some { s with
          queue
          tasks := s.tasks ++
            [⟨(batch.map (·.feed)).eraseDups, process options batch.length batch, none⟩] }
    else none
  | .send i txHash =>
    match s.tasks[i]? with
    | some ⟨feeds, .ask (.submit batch) next, none⟩ =>
      -- The hash of a transaction is its own.
      if txHash ≠ "" ∧ (∀ tx ∈ s.txs, tx.hash ≠ txHash) ∧ txHash ∉ s.dead then
        some { s with
          tasks := s.tasks.set i ⟨feeds, .ask (.submit batch) next, some txHash⟩
          txs := s.txs ++ [⟨txHash, idsOf batch, false⟩] }
      else none
    | _ => none
  | .land txHash =>
    match s.txs.find? fun tx => tx.hash = txHash && !tx.landed with
    | some tx =>
      if txHash ∈ s.dead then none
      else
        some { s with
          txs := landTx txHash s.txs
          trace := s.trace ++ tx.ids.map .landed }
    | none => none
  | .submitted i answer =>
    match s.tasks[i]? with
    | some ⟨feeds, .ask (.submit _) next, some txHash⟩ =>
      some { s with
        tasks := s.tasks.set i ⟨feeds, next answer, none⟩
        dead := deadAfterSubmit txHash answer s.dead }
    | _ => none
  | .lookedUp i answer =>
    match s.tasks[i]? with
    | some ⟨feeds, .ask (.lookup _ txHash) next, sent⟩ =>
      some { s with
        tasks := s.tasks.set i ⟨feeds, next answer, sent⟩
        dead := deadAfterLookup txHash answer s.dead }
    | _ => none
  | .executed i now =>
    match s.tasks[i]? with
    | some ⟨feeds, .ask (.statement statement) next, sent⟩ =>
      some { s with
        queue := s.queue.execute statement now
        tasks := s.tasks.set i ⟨feeds, next (), sent⟩
        trace := s.trace ++ statement.events }
    | _ => none
  | .drawn i random =>
    match s.tasks[i]? with
    | some ⟨feeds, .ask .random next, sent⟩ =>
      some { s with tasks := s.tasks.set i ⟨feeds, next random, sent⟩ }
    | _ => none
  | .finished i =>
    match s.tasks[i]? with
    | some ⟨_, .done, _⟩ => some { s with tasks := s.tasks.eraseIdx i }
    | _ => none
  | .restart => some { s with queue := s.queue.recoverInflight, tasks := [] }

end Refract.Oracle
