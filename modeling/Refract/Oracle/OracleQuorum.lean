import Refract.Lib.OrdMap
import Refract.Lib.Runs
import Refract.Oracle.OracleEncoding
import Refract.Stellar.RelayerKeyring

/-!
# Collecting a quorum of signatures

`OracleQuorumService.collect` signs the payload of a decision with enough active keys, checks that
their ids are still active, and tries again a few times if they are not. Results are kept by the id
of the decision. A collection does not await anything, but every method of the keyring reads the
keystore, whose contents may change from one read to the next: the collection is cut at its reads.
Where a collection fails, its entry is removed in a later task (`forget`).
-/

namespace Refract.Oracle

open Lib Refract.Stellar

/-! ## Requests and results -/

structure QuorumRequest where
  oracleContractId : String
  network : String
  feed : String
  value : JsNumber
  decisionId : String
  deriving DecidableEq, Repr

structure QuorumResult where
  decisionId : String
  feed : String
  required : Nat
  signatures : List KeySignature

/-- A result, and the keys of the keystore as last read before it was produced. -/
structure Produced where
  result : QuorumResult
  keys : List LoadedKey

def payloadOf (request : QuorumRequest) : Except JsError (List UInt8) :=
  buildPublishPayload request.oracleContractId request.feed request.value request.decisionId

/-! ## One collection -/

/-- What the next read of the keystore is for. -/
inductive QuorumStage where
  | listing
  | signing (key : LoadedKey) (left : List LoadedKey) (signatures : List KeySignature)
      (failures : List String)
  | checking (signature : KeySignature) (left valid : List KeySignature)

/-- A collection that runs: its payload and threshold, how many more times it may collect again, and
the keys that were listed for this attempt. -/
structure QuorumRun where
  request : QuorumRequest
  payload : List UInt8
  required : Nat
  retries : Nat
  listed : List LoadedKey
  stage : QuorumStage

inductive QuorumProgress where
  | reads (run : QuorumRun)
  | ends (outcome : Except String QuorumResult)

namespace QuorumRun

/-- Enough signatures of enough public keys. -/
def Enough (required : Nat) (valid : List KeySignature) : Prop :=
  required ≤ valid.length ∧ required ≤ (valid.map (·.publicKey)).dedup.length

instance (required : Nat) (valid : List KeySignature) : Decidable (Enough required valid) :=
  inferInstanceAs (Decidable
    (required ≤ valid.length ∧ required ≤ (valid.map (·.publicKey)).dedup.length))

/-- The keyring has changed: collect again, or give up. -/
def retry (run : QuorumRun) : QuorumProgress :=
  match run.retries with
  | 0 => .ends (.error ("Quorum for " ++ run.request.decisionId ++
      " not stable across key rotation; refusing to publish"))
  | n + 1 => .reads { run with retries := n, listed := [], stage := .listing }

/-- `signatures.filter((s) => this.keyring.isActive(s.keyId))` -/
def check (run : QuorumRun) (left valid : List KeySignature) : QuorumProgress :=
  match left with
  | s :: left => .reads { run with stage := .checking s left valid }
  | [] =>
    if Enough run.required valid then
      .ends (.ok ⟨run.request.decisionId, run.request.feed, run.required, valid⟩)
    else run.retry

def notMet (run : QuorumRun) (signatures : List KeySignature) (failures : List String) : String :=
  "Quorum not met for " ++ run.request.feed ++ ": " ++ toString signatures.length ++ "/" ++
    toString run.required ++ " signatures" ++
    (if failures = [] then "" else " (failed keys: " ++ String.intercalate ", " failures ++ ")")

/-- The loop of `signFor`. -/
def signNext (run : QuorumRun) (left : List LoadedKey) (signatures : List KeySignature)
    (failures : List String) : QuorumProgress :=
  if run.required ≤ signatures.length then run.check signatures []
  else
    match left with
    | [] => .ends (.error (run.notMet signatures failures))
    | key :: left => .reads { run with stage := .signing key left signatures failures }

/-- The collection goes on after a read. -/
def goOn (env : KeyringEnv) (keyring : Keyring) (run : QuorumRun) : QuorumProgress :=
  match run.stage with
  | .listing =>
    let listed := keyring.activeKeys env run.request.network
    { run with listed }.signNext listed [] []
  | .signing key left signatures failures =>
    match keyring.signWith env key.id run.payload with
    | some s => run.signNext left (signatures ++ [s]) failures
    | none => run.signNext left signatures (failures ++ [key.id])
  | .checking s left valid =>
    run.check left (if keyring.isActive s.keyId then valid ++ [s] else valid)

end QuorumRun

/-- `MAX_REVALIDATIONS` -/
def maxRevalidations : Nat := 3

def beginRun (env : KeyringEnv) (request : QuorumRequest) (payload : List UInt8) : QuorumRun :=
  ⟨request, payload, requiredSignatures env request.feed, maxRevalidations - 1, [], .listing⟩

/-! ## The service -/

/-- The promise kept for a decision, with the request it was made for. -/
structure Decision where
  request : QuorumRequest
  outcome : Except String Produced

/-- How a call of `collect` ends. -/
inductive QuorumEvent where
  | resolved (request : QuorumRequest) (produced : Produced)
  | rejected (request : QuorumRequest) (message : String)

def endEvent (request : QuorumRequest) : Except String Produced → QuorumEvent
  | .ok produced => .resolved request produced
  | .error message => .rejected request message

structure QuorumState where
  keyring : Keyring
  running : Option QuorumRun
  decisions : OrdMap String Decision
  history : List QuorumEvent

inductive QuorumLabel where
  | collect (request : QuorumRequest)
  /-- The keystore is read, by the collection that runs or by somebody else. -/
  | read (read : KeystoreRead)
  /-- The handler of a failed collection removes its entry. -/
  | forget (decisionId : String)

def QuorumState.start (env : KeyringEnv) (read : KeystoreRead) : QuorumState :=
  ⟨Keyring.new env read, none, .empty, []⟩

/-- A collection has ended. -/
def QuorumState.settle (s : QuorumState) (request : QuorumRequest)
    (outcome : Except String Produced) : QuorumState :=
  { s with
    running := none
    decisions := s.decisions.set request.decisionId ⟨request, outcome⟩
    history := s.history ++ [endEvent request outcome] }

/-- What becomes of the collection after a read. -/
def QuorumState.proceed (s : QuorumState) (request : QuorumRequest) :
    QuorumProgress → QuorumState
  | .reads run => { s with running := some run }
  | .ends outcome => s.settle request (outcome.map fun result => ⟨result, s.keyring.keys⟩)

def quorumStep (env : KeyringEnv) (s : QuorumState) (l : QuorumLabel) : Option QuorumState :=
  match l, s.running with
  | .collect request, none =>
    match s.decisions.get? request.decisionId with
    | some existing =>
      some { s with history := s.history ++ [endEvent request existing.outcome] }
    | none =>
      match payloadOf request with
      | .error e => some (s.settle request (.error e.message))
      | .ok payload => some { s with running := some (beginRun env request payload) }
  | .read read, none => some { s with keyring := refreshIfChanged env s.keyring read }
  | .read read, some run =>
    let keyring := refreshIfChanged env s.keyring read
    some ({ s with keyring }.proceed run.request (run.goOn env keyring))
  | .forget decisionId, none =>
    match s.decisions.get? decisionId with
    | some ⟨_, .error _⟩ => some { s with decisions := s.decisions.delete decisionId }
    | _ => none
  | _, _ => none

/-- One read of the keystore, or one call. -/
abbrev QuorumSteps (env : KeyringEnv) (s : QuorumState) (l : QuorumLabel) (s' : QuorumState) :
    Prop := quorumStep env s l = some s'

end Refract.Oracle
