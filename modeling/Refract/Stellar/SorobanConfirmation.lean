import Refract.Lib.Ecma

/-!
# Confirming a submitted transaction

The answers of an RPC node to `sendTransaction` and `getTransaction`, when they are true of the
ledger, and `pollForConfirmation`: it asks for a transaction until that has landed or the deadline
has passed, with a growing, jittered pause in between. The loop is cut at its two awaits (`Poll`).
The optional abort signal is left out: no caller passes one.

The outcome says what is known of the transaction (`Poll.outcome_of_answered`): only an answer of
the node makes it a success or a failure.
-/

namespace Refract.Stellar

/-! ## Answers of a node -/

inductive SendStatus where
  | pending
  | duplicate
  | tryAgainLater
  | error

def SendStatus.text : SendStatus → String
  | pending => "PENDING"
  | duplicate => "DUPLICATE"
  | tryAgainLater => "TRY_AGAIN_LATER"
  | error => "ERROR"

/-- The node has accepted the transaction, now or before. -/
def SendStatus.accepts : SendStatus → Bool
  | .pending | .duplicate => true
  | .tryAgainLater | .error => false

/-- The answer to `sendTransaction`, with the text of its error result. -/
structure SendReply where
  status : SendStatus
  hash : String
  detail : String

/-- The send is refused, or it throws. -/
def IsRefusal : Except String SendReply → Prop
  | .ok reply => reply.status.accepts = false
  | .error _ => True

instance (reply : Except String SendReply) : Decidable (IsRefusal reply) := by
  unfold IsRefusal
  split <;> infer_instance

/-- The answer to `getTransaction`. -/
inductive GetReply where
  | success (returnValue : Option String)
  | failed
  | notFound

/-! ## The ledger's view -/

/-- The transaction is not known to the network, accepted by a node, or in a ledger. -/
inductive TxFate where
  | unknown
  | accepted
  | succeeded
  | failed
  deriving DecidableEq, Repr

/-- The transaction can still succeed, or has. -/
def TxFate.isOpen : TxFate → Bool
  | .accepted | .succeeded => true
  | .unknown | .failed => false

/-- A node calls a transaction accepted only if it is. -/
def SendTruthful (fate : TxFate) : Except String SendReply → Prop
  | .ok reply => reply.status.accepts = true → fate ≠ .unknown
  | .error _ => True

/-- A node finds a transaction in a ledger only if it is there. -/
def GetTruthful (fate : TxFate) : Except String GetReply → Prop
  | .ok (.success _) => fate = .succeeded
  | .ok .failed => fate = .failed
  | .ok .notFound | .error _ => True

instance (fate : TxFate) (reply : Except String SendReply) :
    Decidable (SendTruthful fate reply) := by
  unfold SendTruthful
  split <;> infer_instance

instance (fate : TxFate) (reply : Except String GetReply) : Decidable (GetTruthful fate reply) := by
  unfold GetTruthful
  split <;> infer_instance

/-! ## Results and options -/

inductive ConfirmationOutcome where
  | success
  | failedOnChain
  | notFoundYetDeadlineExceeded
  | aborted
  | submissionRejected
  | unexpectedStatus
  deriving DecidableEq, Repr

def ConfirmationOutcome.text : ConfirmationOutcome → String
  | success => "success"
  | failedOnChain => "failed_on_chain"
  | notFoundYetDeadlineExceeded => "not_found_yet_deadline_exceeded"
  | aborted => "aborted"
  | submissionRejected => "submission_rejected"
  | unexpectedStatus => "unexpected_status"

structure ConfirmationResult where
  confirmed : Bool
  outcome : ConfirmationOutcome
  txHash : String
  error : Option String
  returnValue : Option String
  deriving DecidableEq, Repr

structure PollOptions where
  initialIntervalMs : ℚ
  backoffMultiplier : ℚ
  maxIntervalMs : ℚ
  deadlineMs : ℚ
  jitterRatio : ℚ
  minIntervalMs : ℚ

/-- `DEFAULT_CONFIRMATION_POLL` -/
def defaultConfirmationPoll : PollOptions := ⟨400, 9 / 5, 8000, 30000, 1 / 5, 100⟩

def withJitter (intervalMs jitterRatio minIntervalMs random : ℚ) : ℚ :=
  let delta := intervalMs * jitterRatio * (2 * random - 1)
  max minIntervalMs (Lib.mathRound (intervalMs + delta))

/-! ## The loop -/

/-- A poll awaits `getTransaction`, or it sleeps for some time. -/
structure Poll where
  hash : String
  deadlineAt : ℚ
  intervalMs : ℚ
  sleepMs : Option ℚ
  deriving DecidableEq, Repr

inductive PollProgress where
  | waits (poll : Poll)
  | ends (result : ConfirmationResult)

namespace Poll

def start (options : PollOptions) (hash : String) (now : ℚ) : Poll :=
  ⟨hash, now + options.deadlineMs, options.initialIntervalMs, none⟩

/-- Not there yet, or the node could not be asked. -/
def pause (options : PollOptions) (poll : Poll) (now random : ℚ) : PollProgress :=
  let remaining := poll.deadlineAt - now
  if remaining ≤ 0 then
    .ends ⟨false, .notFoundYetDeadlineExceeded, poll.hash,
      some "Timed out waiting for confirmation", none⟩
  else
    .waits { poll with
      sleepMs := some (min
        (withJitter poll.intervalMs options.jitterRatio options.minIntervalMs random) remaining) }

/-- `getTransaction` answers or throws. -/
def answered (options : PollOptions) (poll : Poll) (reply : Except String GetReply)
    (now random : ℚ) : PollProgress :=
  match reply with
  | .ok (.success returnValue) => .ends ⟨true, .success, poll.hash, none, returnValue⟩
  | .ok .failed =>
    .ends ⟨false, .failedOnChain, poll.hash, some "Transaction failed on-chain", none⟩
  | .ok .notFound | .error _ => pause options poll now random

/-- The pause is over. -/
def wake (options : PollOptions) (poll : Poll) : Poll :=
  { poll with
    intervalMs := min options.maxIntervalMs (poll.intervalMs * options.backoffMultiplier)
    sleepMs := none }

/-- What the result of an answer says. -/
theorem outcome_of_answered {options : PollOptions} {poll : Poll} {reply : Except String GetReply}
    {now random : ℚ} {result : ConfirmationResult}
    (h : answered options poll reply now random = .ends result) :
    (result.confirmed = true ∧ result.outcome = .success ∧ ∃ value, reply = .ok (.success value)) ∨
    (result.confirmed = false ∧ result.outcome = .failedOnChain ∧ reply = .ok .failed) ∨
    (result.confirmed = false ∧ result.outcome = .notFoundYetDeadlineExceeded ∧
      poll.deadlineAt ≤ now ∧ (reply = .ok .notFound ∨ ∃ message, reply = .error message)) := by
  -- Without an answer from a ledger the poll ends at its deadline only.
  have hpause : pause options poll now random = .ends result →
      result.confirmed = false ∧ result.outcome = .notFoundYetDeadlineExceeded ∧
        poll.deadlineAt ≤ now := by
    intro hends
    simp only [pause] at hends
    split at hends
    · rename_i hleft
      cases hends
      exact ⟨rfl, rfl, sub_nonpos.1 hleft⟩
    · cases hends
  cases reply with
  | error message =>
    obtain ⟨hconf, hout, hlate⟩ := hpause h
    exact .inr (.inr ⟨hconf, hout, hlate, .inr ⟨message, rfl⟩⟩)
  | ok reply =>
    cases reply with
    | success value =>
      cases h
      exact .inl ⟨rfl, rfl, value, rfl⟩
    | failed =>
      cases h
      exact .inr (.inl ⟨rfl, rfl, rfl⟩)
    | notFound =>
      obtain ⟨hconf, hout, hlate⟩ := hpause h
      exact .inr (.inr ⟨hconf, hout, hlate, .inl rfl⟩)

end Poll

end Refract.Stellar
