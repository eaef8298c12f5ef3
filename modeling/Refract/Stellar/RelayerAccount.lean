import Refract.Lib.Ecma
import Refract.Lib.Programs
import Refract.Lib.Runs
import Refract.Stellar.SorobanConfirmation

/-!
# The relayer's account

`RelayerAccountService` hands out the sequence numbers of one account. Submissions are queued and
run one at a time. Each takes an `Account` from the cached sequence or from the network, asks for
fees, lets the caller build one transaction from the account, signs it and sends it. Building uses
the sequence of the account plus one and increments the account; after a successful send the service
increments the account once more and caches what it then holds.

A submission is a program that asks the clock, the RPC node and the caller. The fields of the
service are an argument of the program and are handed back at its end (`finish`): no other
submission runs meanwhile.
-/

namespace Refract.Stellar

open Lib

/-! ## Configuration, fields, errors -/

structure RelayerConfig where
  /-- A valid secret seed is configured. -/
  configured : Bool
  feeMultiplier : ℚ
  feeCeiling : Int
  idleResyncMs : Int
  minBalance : Int
  maxAttempts : Int

structure RelayerFields where
  cachedSequence : Option Int
  lastSyncedAt : Int
  cachedBalanceStroops : Option Int

inductive RelayerError where
  | notReady (message : String)
  | insufficientBalance (message : String)
  | sequenceExhausted (message : String)
  | other (message : String)

def RelayerError.message : RelayerError → String
  | notReady message | insufficientBalance message | sequenceExhausted message | other message =>
    message

/-- `/txBAD_SEQ|BAD_SEQ/i`, of the message; the flag on an error repeats it. -/
def RelayerError.isBadSeq (e : RelayerError) : Bool :=
  (e.message.toList.map Char.toUpper).tails.any ("BAD_SEQ".toList.isPrefixOf ·)

/-- `BASE_FEE` -/
def baseFee : Int := 100

/-! ## What a submission asks -/

/-- The parts of `getFeeStats` that are read: the numbers of `p50` and of `mode`. -/
structure FeeDistribution where
  p50 : Option JsNumber
  mode : Option JsNumber

structure FeeStats where
  sorobanInclusionFee : Option FeeDistribution
  inclusionFee : Option FeeDistribution

/-- `getAccount` is asked for the sequence, and again for the balance. `build` is the caller's
`buildFn` with an account and a fee, `send` is `sendTransaction` with an envelope. -/
inductive RelayerAsk where
  | now
  | sequence
  | balance
  | feeStats
  | build (account fee : Int)
  | send (sequence : Int)
  | finish (fields : RelayerFields) (result : Except RelayerError String)

/-- The balance is the number of the native balance, if the reply has one. -/
abbrev RelayerAnswer : RelayerAsk → Type
  | .now => Int
  | .sequence => Except String Int
  | .balance => Except String (Option JsNumber)
  | .feeStats => Except String FeeStats
  | .build _ _ => Except String Unit
  | .send _ => Except String SendReply
  | .finish _ _ => Unit

abbrev RelayerProgram := Program RelayerAsk RelayerAnswer

def finish (fields : RelayerFields) (result : Except RelayerError String) : RelayerProgram :=
  .ask (.finish fields result) fun _ => .done

/-! ## Sequence and balance -/

section Submission

variable (config : RelayerConfig) (fields : RelayerFields)

def refreshBalance (next : RelayerFields → RelayerProgram) : RelayerProgram :=
  .ask .balance fun
    | .error _ => next fields
    | .ok none => next { fields with
        cachedBalanceStroops := some (fields.cachedBalanceStroops.getD config.minBalance) }
    | .ok (some (.finite q)) =>
      next { fields with cachedBalanceStroops := some ⌊q * 10000000⌋ }
    -- `BigInt` throws on a number that is not finite, and the cache stays as it is.
    | .ok (some _) => next fields

def resyncFromNetwork (next : RelayerFields → RelayerProgram)
    (fail : RelayerFields → RelayerError → RelayerProgram) : RelayerProgram :=
  .ask .sequence fun
    | .error message => fail fields (.other message)
    | .ok sequence => .ask .now fun now =>
      refreshBalance config
        { fields with cachedSequence := some sequence, lastSyncedAt := now } next

/-- The cached sequence is taken as it is. -/
def RelayerFields.usesCache (now : Int) : Bool :=
  fields.cachedSequence.isSome && !decide (config.idleResyncMs < now - fields.lastSyncedAt)

/-- `new Account(publicKey, this.cachedSequence!)` -/
def newAccount (next : RelayerFields → Int → RelayerProgram)
    (fail : RelayerFields → RelayerError → RelayerProgram) : RelayerProgram :=
  match fields.cachedSequence with
  | some sequence => next fields sequence
  | none => fail fields (.other "sequence must be of type string")

def checkoutAccount (forceResync : Bool) (now : Int) (next : RelayerFields → Int → RelayerProgram)
    (fail : RelayerFields → RelayerError → RelayerProgram) : RelayerProgram :=
  if forceResync || !fields.usesCache config now then
    resyncFromNetwork config fields (fun fields => newAccount fields next fail) fail
  else newAccount fields next fail

/-! ## Fees -/

/-- `a || b`, where zero and `NaN` are falsy. -/
def orElseNumber (a : JsNumber) (b : JsNumber) : JsNumber :=
  if a = .finite 0 ∨ a = .nan then b else a

/-- `Number(fee?.p50 ?? fee?.mode ?? 0)` -/
def FeeDistribution.typical (fee : Option FeeDistribution) : JsNumber :=
  (fee.bind fun f => f.p50.or f.mode).getD (.finite 0)

/-- `Math.min(Math.max(raw, floor), this.feeCeiling)` -/
def clampFee (raw : Int) : Int := min (max raw baseFee) config.feeCeiling

/-- `Math.ceil(inclusion * this.feeMultiplier)`, clamped; nothing for `NaN`. -/
def scaledFee (inclusion : JsNumber) : Option Int :=
  let infinite (positive : Bool) : Option Int :=
    if config.feeMultiplier = 0 then none
    else some (if positive = decide (0 < config.feeMultiplier) then config.feeCeiling
      else clampFee config baseFee)
  match inclusion with
  | .finite q => some (clampFee config ⌈q * config.feeMultiplier⌉)
  | .posInf => infinite true
  | .negInf => infinite false
  | .nan => none

def selectFee (next : Option Int → RelayerProgram) : RelayerProgram :=
  .ask .feeStats fun
    | .error _ => next (some (clampFee config baseFee))
    | .ok stats => next (scaledFee config
        (orElseNumber (FeeDistribution.typical stats.sorobanInclusionFee)
          (orElseNumber (FeeDistribution.typical stats.inclusionFee) (.finite baseFee))))

/-- The second half of `ensureBalanceCovers`. -/
def requireBalance (fee : Int) (next : RelayerFields → RelayerProgram)
    (fail : RelayerFields → RelayerError → RelayerProgram) : RelayerProgram :=
  let balance := fields.cachedBalanceStroops.getD 0
  if balance < fee then
    fail fields (.insufficientBalance ("Relayer balance " ++ toString balance ++
      " stroops cannot cover fee " ++ toString fee))
  else next fields

def ensureBalanceCovers (fee : Int) (next : RelayerFields → RelayerProgram)
    (fail : RelayerFields → RelayerError → RelayerProgram) : RelayerProgram :=
  match fields.cachedBalanceStroops with
  | none => refreshBalance config fields fun fields => requireBalance fields fee next fail
  | some _ => requireBalance fields fee next fail

/-! ## Submitting -/

/-- The error of a reply that does not accept the transaction. -/
def SendReply.refusal (reply : SendReply) : RelayerError :=
  .other ("Submission not accepted: " ++ reply.status.text ++
    (if reply.detail = "" then "" else " " ++ reply.detail))

/-- Sends the envelope that was built from the account; the builder has incremented it. -/
def sendSigned (account : Int) (succeed : RelayerFields → String → RelayerProgram)
    (fail : RelayerFields → RelayerError → RelayerProgram) : RelayerProgram :=
  .ask (.send account) fun
    | .error message => fail fields (.other message)
    | .ok reply =>
      match reply.status with
      | .error | .tryAgainLater => fail fields reply.refusal
      | .pending | .duplicate => .ask .now fun now =>
        -- `advanceSequenceAfterSuccess` increments the account once more.
        succeed { fields with cachedSequence := some (account + 1), lastSyncedAt := now }
          reply.hash

/-- The caller builds one transaction. -/
def buildAndSend (account fee : Int) (succeed : RelayerFields → String → RelayerProgram)
    (fail : RelayerFields → RelayerError → RelayerProgram) : RelayerProgram :=
  .ask (.build account fee) fun
    | .error message => fail fields (.other message)
    | .ok _ => sendSigned fields (account + 1) succeed fail

/-- One pass of the loop. -/
def attempt (forceResync : Bool) (now : Int) (succeed : RelayerFields → String → RelayerProgram)
    (fail : RelayerFields → RelayerError → RelayerProgram) : RelayerProgram :=
  checkoutAccount config fields forceResync now
    (fun fields account => selectFee config fun
      | none => fail fields (.other "Cannot convert NaN to a BigInt")
      | some fee => ensureBalanceCovers config fields fee
          (fun fields => buildAndSend fields account fee succeed fail) fail)
    fail

def exhaustedError (lastError : String) : RelayerError :=
  .sequenceExhausted ("Relayer submission failed after " ++ toString config.maxAttempts ++
    " attempts: " ++ lastError)

/-- What the handler does with an error when `left` attempts remain. -/
def handleError (retry : RelayerFields → RelayerProgram) (left : Nat) (fields : RelayerFields)
    (e : RelayerError) : RelayerProgram :=
  match e with
  | .notReady _ | .insufficientBalance _ => finish fields (.error e)
  | .sequenceExhausted _ | .other _ =>
    if e.isBadSeq && 0 < left then retry { fields with cachedSequence := none }
    else if left = 0 then finish fields (.error (exhaustedError config e.message))
    else finish fields (.error e)

/-- The loop, with the number of attempts that remain. Only the first attempt looks at the time:
the others resync in any case. -/
def attempts (now : Int) : Nat → Bool → RelayerFields → RelayerProgram
  | 0, _, fields => finish fields (.error (exhaustedError config "undefined"))
  | left + 1, forceResync, fields =>
    attempt config fields forceResync now (fun fields hash => finish fields (.ok hash))
      (handleError config (attempts now left true) left)

def submitWithRetries (now : Int) : RelayerProgram :=
  if config.configured then attempts config now config.maxAttempts.toNat false fields
  else finish fields (.error (.notReady "Relayer is not configured"))

end Submission

/-! ## The queue and the network -/

inductive RelayerEvent where
  /-- The sequence of the account is read from the network. -/
  | synced (sequence : Int)
  /-- The network accepts or rejects an envelope by its sequence. -/
  | accepted (sequence : Int)
  | badSeq (sequence : Int)
  | ended (call : Nat) (result : Except RelayerError String)

/-- What becomes of an envelope: the network judges its sequence and the reply arrives, a node
refuses it for another reason, or the call throws before or after the network has judged it. -/
inductive SendOutcome where
  | judged (hash detail : String)
  | refused (retryable : Bool) (hash detail : String)
  | lost (judged : Bool) (message : String)

inductive RelayerLabel where
  /-- `submitRelayerTransaction` is called. -/
  | call
  /-- The submission at the head of the queue begins. -/
  | start (now : Int)
  | now (now : Int)
  | sequence (failure : Option String)
  | balance (reply : Except String (Option JsNumber))
  | feeStats (reply : Except String FeeStats)
  | build (reply : Except String Unit)
  | send (outcome : SendOutcome)
  | finish

/-- The service, the calls in the queue, the one that runs, the number of calls so far, the sequence
of the last accepted transaction, and what has happened. -/
structure RelayerState where
  fields : RelayerFields
  queue : List Nat
  running : Option (Nat × RelayerProgram)
  calls : Nat
  network : Int
  history : List RelayerEvent

def RelayerState.start (network : Int) : RelayerState :=
  ⟨⟨none, 0, none⟩, [], none, 0, network, []⟩

/-- The network accepts an envelope exactly when its sequence is the next one. -/
def judge (network sequence : Int) : Int × RelayerEvent :=
  if sequence = network + 1 then (sequence, .accepted sequence) else (network, .badSeq sequence)

/-- The network afterwards, the events, and what the service is answered. -/
def deliver (network sequence : Int) :
    SendOutcome → Int × List RelayerEvent × Except String SendReply
  | .judged hash detail =>
    let (network', e) := judge network sequence
    (network', [e], .ok (if sequence = network + 1 then ⟨.pending, hash, ""⟩
      else ⟨.error, hash, detail⟩))
  | .refused retryable hash detail =>
    (network, [], .ok ⟨if retryable then .tryAgainLater else .error, hash, detail⟩)
  | .lost judged message =>
    if judged then
      let (network', e) := judge network sequence
      (network', [e], .error message)
    else (network, [], .error message)

def relayerStep (config : RelayerConfig) (s : RelayerState) (l : RelayerLabel) :
    Option RelayerState :=
  match l, s.running with
  | .call, _ => some { s with queue := s.queue ++ [s.calls], calls := s.calls + 1 }
  | .start now, none =>
    match s.queue with
    | [] => none
    | call :: queue => some { s with
        queue
        running := some (call, submitWithRetries config s.fields now) }
  | .now now, some (call, .ask .now next) => some { s with running := some (call, next now) }
  | .sequence none, some (call, .ask .sequence next) => some { s with
      running := some (call, next (.ok s.network))
      history := s.history ++ [RelayerEvent.synced s.network] }
  | .sequence (some message), some (call, .ask .sequence next) => some { s with
      running := some (call, next (.error message)) }
  | .balance reply, some (call, .ask .balance next) => some { s with
      running := some (call, next reply) }
  | .feeStats reply, some (call, .ask .feeStats next) => some { s with
      running := some (call, next reply) }
  | .build reply, some (call, .ask (.build _ _) next) => some { s with
      running := some (call, next reply) }
  | .send outcome, some (call, .ask (.send sequence) next) =>
    let (network, events, reply) := deliver s.network sequence outcome
    some { s with
      running := some (call, next reply)
      network
      history := s.history ++ events }
  | .finish, some (call, .ask (.finish fields result) _) => some { s with
      fields
      running := none
      history := s.history ++ [RelayerEvent.ended call result] }
  | _, _ => none

/-- One call is queued, or the submission that runs goes on. -/
abbrev RelayerSteps (config : RelayerConfig) (s : RelayerState) (l : RelayerLabel)
    (s' : RelayerState) : Prop :=
  relayerStep config s l = some s'

end Refract.Stellar
