import Refract.Lib.Ecma
import Refract.Lib.OrdMap

/-!
# Ingesting readings of oracle sources

`OracleIngestionPipeline` takes readings from sources it polls and from signed webhooks. A webhook
is authenticated (`readSignatureHeaders`, `verifyWebhookSignature`), its nonce is claimed in the
`InMemoryNonceStore`, and only then its body is parsed; every reading is checked against the last
one accepted for its source and feed.

All of that runs without an `await`; what comes later, the calls of the sinks, changes nothing any
more. So a webhook is one step, and so is what a pull does once `poll` has answered. The adapters
belong to the sources: what `poll` resolves to, and what `JSON.parse` and `parse` make of a body,
are inputs of the steps. The check of an HMAC is a parameter.
-/

namespace Refract.Oracle.Ingestion

open Lib

/-! ## Sources and readings -/

structure SourceReading where
  feedId : String
  coverageType : String
  value : JsNumber
  observedAt : JsNumber
  sequence : Option JsNumber
  deriving DecidableEq, Repr

inductive OracleSourceMode where
  | pull
  | push
  deriving DecidableEq, Repr

structure IngestedReading extends SourceReading where
  sourceId : String
  mode : OracleSourceMode
  receivedAt : Int
  deriving DecidableEq, Repr

/-- One signing key; times are milliseconds. -/
structure WebhookCredential where
  keyId : String
  secret : String
  notBefore : Option Int
  notAfter : Option Int

/-- `OracleSourceAdapter`; a pull source has no credentials. -/
structure OracleSource where
  id : String
  feeds : List String
  mode : OracleSourceMode
  credentials : List WebhookCredential

structure IngestionConfig where
  maxReadingAgeMs : Int
  maxFutureSkewMs : Int
  webhookMaxSkewMs : Int
  maxWebhookBodyBytes : Nat
  maxReadingsPerDelivery : Nat

/-- `DEFAULT_INGESTION_CONFIG`. -/
def defaultIngestionConfig : IngestionConfig where
  maxReadingAgeMs := 5 * 60000
  maxFutureSkewMs := 30000
  webhookMaxSkewMs := 5 * 60000
  maxWebhookBodyBytes := 64 * 1024
  maxReadingsPerDelivery := 100

inductive ReadingRejectReason where
  | feedNotRegistered
  | invalidValue
  | stale
  | futureDated
  | notNewerThanLast
  | sequenceNotIncreasing
  | afterSignedTimestamp

structure IngestionResult where
  accepted : List IngestedReading
  rejected : List (SourceReading × ReadingRejectReason)

/-! ## Registration -/

def isWord (c : Char) : Bool := c.isAlphanum || decide (c = '_') || decide (c = '-')

/-- `/^[A-Za-z0-9_.-]{1,64}$/`. -/
def isSourceId (id : String) : Bool :=
  id.toList.all (fun c => isWord c || decide (c = '.')) &&
    decide (1 ≤ id.toList.length ∧ id.toList.length ≤ 64)

def minSecretBytes : Nat := 32

/-- The loop of `assertCredentialsUsable`, with the key ids seen so far. -/
def checkCredentials (sourceId : String) : List String → List WebhookCredential → Except String Unit
  | _, [] => .ok ()
  | seen, c :: rest =>
    if c.keyId ∈ seen then
      .error ("Push source " ++ sourceId ++ " has duplicate keyId " ++ c.keyId)
    else if c.secret.utf8ByteSize < minSecretBytes then
      .error ("Push source " ++ sourceId ++ " key " ++ c.keyId ++ " secret is shorter than " ++
        toString minSecretBytes ++ " bytes")
    else checkCredentials sourceId (c.keyId :: seen) rest

def assertCredentialsUsable (sourceId : String) (credentials : List WebhookCredential) :
    Except String Unit :=
  if credentials.isEmpty then
    .error ("Push source " ++ sourceId ++ " has no webhook credentials")
  else checkCredentials sourceId [] credentials

/-! ## Signed requests -/

/-- A header of a request; a repeated one is a list. -/
inductive HeaderValue where
  | single (value : String)
  | repeated (values : List String)

structure InboundWebhook where
  headers : String → Option HeaderValue
  rawBody : Option (List UInt8)

structure SignedWebhookHeaders where
  keyId : String
  timestamp : Nat
  nonce : String
  signature : String

/-- What a signature is about: the parts of `buildSigningString`. -/
structure SignedRequest where
  sourceId : String
  keyId : String
  timestamp : Nat
  nonce : String
  body : List UInt8
  deriving DecidableEq, Repr

/-- Why a webhook is refused: the reasons of `WebhookRejectReason` and of the pipeline. -/
inductive WebhookRefusal where
  | unknownSource
  | bodyTooLarge
  | missingHeaders
  | malformedHeaders
  | unknownKey
  | keyNotActive
  | timestampOutOfWindow
  | badSignature
  | replayedNonce
  | nonceStoreFull
  | invalidJson
  | invalidPayload
  | tooManyReadings

namespace WebhookRefusal

def reason : WebhookRefusal → String
  | unknownSource => "unknown_source"
  | bodyTooLarge => "body_too_large"
  | missingHeaders => "missing_headers"
  | malformedHeaders => "malformed_headers"
  | unknownKey => "unknown_key"
  | keyNotActive => "key_not_active"
  | timestampOutOfWindow => "timestamp_out_of_window"
  | badSignature => "bad_signature"
  | replayedNonce => "replayed_nonce"
  | nonceStoreFull => "nonce_store_full"
  | invalidJson => "invalid_json"
  | invalidPayload => "invalid_payload"
  | tooManyReadings => "too_many_readings"

def status : WebhookRefusal → Nat
  | bodyTooLarge => 413
  | invalidJson | invalidPayload | tooManyReadings => 400
  | unknownSource | missingHeaders | malformedHeaders | unknownKey | keyNotActive
  | timestampOutOfWindow | badSignature | replayedNonce | nonceStoreFull => 401

end WebhookRefusal

/-- A header that is there once and is not empty. -/
def singleHeader (request : InboundWebhook) (name : String) : Option String :=
  match request.headers name with
  | some (.single value) => if value.isEmpty then none else some value
  | some (.repeated _) | none => none

/-- `/^\d{1,12}$/`. -/
def isTimestamp (text : String) : Bool :=
  text.toList.all Char.isDigit && decide (1 ≤ text.toList.length ∧ text.toList.length ≤ 12)

/-- `NONCE_PATTERN`. -/
def isNonce (text : String) : Bool :=
  text.toList.all isWord && decide (16 ≤ text.toList.length ∧ text.toList.length ≤ 128)

/-- `SIGNATURE_PATTERN`. -/
def isSignature (text : String) : Bool :=
  match text.toList with
  | 'v' :: '1' :: '=' :: digits =>
    digits.all (fun c => c.isDigit || decide ('a' ≤ c ∧ c ≤ 'f')) && decide (digits.length = 64)
  | _ => false

/-- `Number(text)` for digits. -/
def digitsValue (text : String) : Nat :=
  text.toList.foldl (fun n c => 10 * n + (c.toNat - '0'.toNat)) 0

def readSignatureHeaders (request : InboundWebhook) :
    Except WebhookRefusal SignedWebhookHeaders :=
  match singleHeader request "x-refract-key-id", singleHeader request "x-refract-timestamp",
      singleHeader request "x-refract-nonce", singleHeader request "x-refract-signature" with
  | some keyId, some timestamp, some nonce, some signature =>
    if !isTimestamp timestamp || !isNonce nonce || !isSignature signature ||
        decide (128 < (codeUnits keyId).length) then .error .malformedHeaders
    else .ok ⟨keyId, digitsValue timestamp, nonce, signature⟩
  | _, _, _, _ => .error .missingHeaders

/-- The times at which a key is valid. -/
def WebhookCredential.ActiveAt (c : WebhookCredential) (now : Int) : Prop :=
  (∀ t ∈ c.notBefore, t ≤ now) ∧ ∀ t ∈ c.notAfter, now < t

instance (c : WebhookCredential) (now : Int) : Decidable (c.ActiveAt now) :=
  inferInstanceAs (Decidable ((∀ t ∈ c.notBefore, t ≤ now) ∧ ∀ t ∈ c.notAfter, now < t))

/-- The distance of the signed timestamp is within the allowed skew. -/
def WithinSkew (maxSkewMs : Int) (timestamp : Nat) (now : Int) : Prop :=
  |now - timestamp * 1000| ≤ maxSkewMs

instance (maxSkewMs : Int) (timestamp : Nat) (now : Int) :
    Decidable (WithinSkew maxSkewMs timestamp now) :=
  inferInstanceAs (Decidable (|now - timestamp * 1000| ≤ maxSkewMs))

/-- `verifyWebhookSignature`; `hmac secret request signature` says that the signature is the one the
secret gives for the request. -/
def verifyWebhookSignature (hmac : String → SignedRequest → String → Bool)
    (credentials : List WebhookCredential) (request : SignedRequest) (signature : String)
    (now maxSkewMs : Int) : Except WebhookRefusal Unit :=
  match credentials.find? fun c => c.keyId = request.keyId with
  | none => .error .unknownKey
  | some credential =>
    if ¬credential.ActiveAt now then .error .keyNotActive
    else if ¬WithinSkew maxSkewMs request.timestamp now then .error .timestampOutOfWindow
    else if !hmac credential.secret request signature then .error .badSignature
    else .ok ()

/-! ## The nonce store -/

inductive NonceClaim where
  | fresh
  | replayed
  | full

/-- `sweep`. -/
def sweep (nonces : OrdMap String Int) (now : Int) : OrdMap String Int :=
  nonces.filterValues fun expiresAt => decide (now < expiresAt)

/-- `InMemoryNonceStore.claim`. -/
def claimNonce (capacity : Nat) (nonces : OrdMap String Int) (key : String) (expiresAt now : Int) :
    NonceClaim × OrdMap String Int :=
  match nonces.get? key with
  | some existing =>
    if now < existing then (.replayed, nonces) else (.fresh, nonces.set key expiresAt)
  | none =>
    if capacity ≤ nonces.size then
      if capacity ≤ (sweep nonces now).size then (.full, sweep nonces now)
      else (.fresh, (sweep nonces now).set key expiresAt)
    else (.fresh, nonces.set key expiresAt)

/-! ## The pipeline -/

/-- What the parts that are not ours do: the HMAC check, and `Array.prototype.sort`. With a `NaN`
among the keys the comparator is inconsistent, and the order is the engine's. -/
structure IngestionHost where
  hmac : String → SignedRequest → String → Bool
  sort : List SourceReading → List SourceReading

/-- The comparator of `accept`. -/
def compareReadings (a b : SourceReading) : Ordering :=
  (a.observedAt.compareDiff b.observedAt).then
    ((a.sequence.getD (.finite 0)).compareDiff (b.sequence.getD (.finite 0)))

/-- The laws of the host: sorting rearranges, and it follows a consistent comparator. -/
structure IngestionHost.Lawful (host : IngestionHost) : Prop where
  sort_perm : ∀ readings, (host.sort readings).Perm readings
  sort_eq : ∀ readings, (∀ r ∈ readings, r.observedAt ≠ .nan ∧ r.sequence ≠ some .nan) →
    host.sort readings = sortBy compareReadings readings

/-- The entry of `lastAccepted`. -/
structure LastReading where
  observedAt : JsNumber
  sequence : Option JsNumber

/-- What has happened: a webhook that came to `accept`, with whether the call resolved (a sink may
throw), and a pull that came to it. -/
inductive PipelineEvent where
  | webhook (request : SignedRequest) (signature : String) (now : Int) (result : IngestionResult)
      (resolved : Bool)
  | pull (sourceId : String) (now : Int) (result : IngestionResult)

/-- The pipeline, the latest time it was called with, and its history. -/
structure PipelineState where
  sources : OrdMap String OracleSource
  nonces : OrdMap String Int
  lastAccepted : OrdMap String LastReading
  clock : Int
  history : List PipelineEvent

namespace PipelineState

/-- A new pipeline. -/
def initial (clock : Int) : PipelineState where
  sources := .empty
  nonces := .empty
  lastAccepted := .empty
  clock
  history := []

end PipelineState

variable (host : IngestionHost) (config : IngestionConfig) (s : PipelineState)

/-- `register`. -/
def register (source : OracleSource) : Except String PipelineState :=
  if !isSourceId source.id then .error ("Invalid oracle source id: " ++ source.id)
  else if s.sources.contains source.id then
    .error ("Oracle source " ++ source.id ++ " already registered")
  else if source.feeds.isEmpty then .error ("Oracle source " ++ source.id ++ " has no feeds")
  else
    match source.mode with
    | .push =>
      (assertCredentialsUsable source.id source.credentials).map fun _ =>
        { s with sources := s.sources.set source.id source }
    | .pull => .ok { s with sources := s.sources.set source.id source }

/-- The key of `lastAccepted`. -/
def lastKey (sourceId feedId : String) : String := sourceId ++ ":" ++ feedId

/-- The last accepted reading does not allow the next one. -/
def checkOrder (last : LastReading) (r : SourceReading) : Option ReadingRejectReason :=
  if r.observedAt.le last.observedAt then some .notNewerThanLast
  else
    match last.sequence, r.sequence with
    | none, _ => none
    | some _, none => some .sequenceNotIncreasing
    | some before, some next => if next.le before then some .sequenceNotIncreasing else none

/-- `check`. -/
def check (lastAccepted : OrdMap String LastReading) (source : OracleSource) (r : SourceReading)
    (now : Int) (signedAtMs : Option Int) : Option ReadingRejectReason :=
  if r.feedId ∉ source.feeds then some .feedNotRegistered
  else
    match r.value.finite?, r.observedAt.finite? with
    | some _, some observedAt =>
      if now + config.maxFutureSkewMs < observedAt then some .futureDated
      else if ∃ signedAt ∈ signedAtMs, signedAt + config.maxFutureSkewMs < observedAt then
        some .afterSignedTimestamp
      else if config.maxReadingAgeMs < now - observedAt then some .stale
      else (lastAccepted.get? (lastKey source.id r.feedId)).bind fun last => checkOrder last r
    | _, _ => some .invalidValue

/-- The loop of `accept`. -/
def acceptAll (config : IngestionConfig) (source : OracleSource) (now : Int)
    (signedAtMs : Option Int) :
    List SourceReading → OrdMap String LastReading → IngestionResult →
      OrdMap String LastReading × IngestionResult
  | [], lastAccepted, result => (lastAccepted, result)
  | r :: rest, lastAccepted, result =>
    match check config lastAccepted source r now signedAtMs with
    | some reason =>
      acceptAll config source now signedAtMs rest lastAccepted
        { result with rejected := result.rejected ++ [(r, reason)] }
    | none =>
      acceptAll config source now signedAtMs rest
        (lastAccepted.set (lastKey source.id r.feedId) ⟨r.observedAt, r.sequence⟩)
        { result with accepted := result.accepted ++ [⟨r, source.id, source.mode, now⟩] }

/-- `accept` up to the calls of the sinks. -/
def accept (lastAccepted : OrdMap String LastReading) (source : OracleSource)
    (readings : List SourceReading) (now : Int) (signedAtMs : Option Int) :
    OrdMap String LastReading × IngestionResult :=
  acceptAll config source now signedAtMs (host.sort readings) lastAccepted ⟨[], []⟩

/-- What `JSON.parse` and the source's `parse` make of a body. -/
inductive ParsedBody where
  | invalidJson
  | invalidPayload
  | readings (parsed : List SourceReading)

/-- The readings of a body, at most as many as a delivery may have. -/
def ParsedBody.limited (maxReadings : Nat) : ParsedBody → Except WebhookRefusal (List SourceReading)
  | .invalidJson => .error .invalidJson
  | .invalidPayload => .error .invalidPayload
  | .readings parsed =>
    if maxReadings < parsed.length then .error .tooManyReadings else .ok parsed

/-- `ingestWebhook` up to the claim of the nonce: the source, the request and its signature. -/
def authenticate (sourceId : String) (webhook : InboundWebhook) (now : Int) :
    Except WebhookRefusal (OracleSource × SignedRequest × String) :=
  match s.sources.get? sourceId with
  | none => .error .unknownSource
  | some source =>
    if source.mode ≠ .push then .error .unknownSource
    else if config.maxWebhookBodyBytes < (webhook.rawBody.getD []).length then
      .error .bodyTooLarge
    else
      match readSignatureHeaders webhook with
      | .error refusal => .error refusal
      | .ok headers =>
        let request : SignedRequest := ⟨sourceId, headers.keyId, headers.timestamp,
          headers.nonce, webhook.rawBody.getD []⟩
        match verifyWebhookSignature host.hmac source.credentials request headers.signature now
            config.webhookMaxSkewMs with
        | .error refusal => .error refusal
        | .ok () => .ok (source, request, headers.signature)

/-- The last moment at which the signed timestamp passes the skew check. -/
def SignedRequest.validUntil (request : SignedRequest) (config : IngestionConfig) : Int :=
  request.timestamp * 1000 + config.webhookMaxSkewMs

/-- The key under which the nonce is claimed. -/
def SignedRequest.nonceKey (request : SignedRequest) : String :=
  request.sourceId ++ ":" ++ request.nonce

/-- `ingestWebhook`; `resolved` says that no sink threw. -/
def ingestWebhook (capacity : Nat) (s : PipelineState) (sourceId : String)
    (webhook : InboundWebhook) (parsed : ParsedBody) (now : Int) (resolved : Bool) :
    PipelineState × Except WebhookRefusal IngestionResult :=
  match authenticate host config s sourceId webhook now with
  | .error refusal => (s, .error refusal)
  | .ok (source, request, signature) =>
    match claimNonce capacity s.nonces request.nonceKey (request.validUntil config + 1) now with
    | (.replayed, nonces) => ({ s with nonces }, .error .replayedNonce)
    | (.full, nonces) => ({ s with nonces }, .error .nonceStoreFull)
    | (.fresh, nonces) =>
      match parsed.limited config.maxReadingsPerDelivery with
      | .error refusal => ({ s with nonces }, .error refusal)
      | .ok readings =>
        let (lastAccepted, result) := accept host config s.lastAccepted source readings now
          (some (request.timestamp * 1000))
        ({ s with
            nonces
            lastAccepted
            history := s.history ++
              [PipelineEvent.webhook request signature now result resolved] },
          .ok result)

/-- `ingestPull` once `poll` has resolved. -/
def ingestPull (sourceId : String) (readings : List SourceReading) (now : Int) :
    Except String (PipelineState × IngestionResult) :=
  match s.sources.get? sourceId with
  | none => .error ("No pull source registered as " ++ sourceId)
  | some source =>
    if source.mode ≠ .pull then .error ("No pull source registered as " ++ sourceId)
    else
      let (lastAccepted, result) := accept host config s.lastAccepted source readings now none
      .ok ({ s with
          lastAccepted
          history := s.history ++ [PipelineEvent.pull sourceId now result] }, result)

/-! ## Its steps -/

inductive PipelineLabel where
  | register (source : OracleSource)
  | webhook (sourceId : String) (webhook : InboundWebhook) (parsed : ParsedBody) (now : Int)
      (resolved : Bool)
  | pull (sourceId : String) (readings : List SourceReading) (now : Int)

/-- The time of a webhook is not before that of the calls so far. A pull may have been called some
time before `poll` answers, so its time may be an earlier one. -/
def pipelineStep (capacity : Nat) (s : PipelineState) : PipelineLabel → Option PipelineState
  | .register source =>
    match register s source with
    | .ok s' => some s'
    | .error _ => some s
  | .webhook sourceId webhook parsed now resolved =>
    if now < s.clock then none
    else
      some { (ingestWebhook host config capacity s sourceId webhook parsed now resolved).1 with
        clock := now }
  | .pull sourceId readings now =>
    match ingestPull host config s sourceId readings now with
    | .ok (s', _) => some { s' with clock := max s.clock now }
    | .error _ => some s

abbrev PipelineSteps (capacity : Nat) (s : PipelineState) (l : PipelineLabel) (s' : PipelineState) :
    Prop :=
  pipelineStep host config capacity s l = some s'

end Refract.Oracle.Ingestion
