import Refract.Lib.Json
import Refract.Lib.OrdMap
import Refract.Lib.Runs
import Refract.Lib.Tables

/-!
# Signed submissions of third parties

`SubmissionVerifier` of `submission-verifier.ts` with the canonical form of
`submission-canonical.ts`, `OracleSubmissionRepository` of `oracle-submission.repository.ts` over
the tables of `002_oracle_submissions.sql`, and the requests of `OracleSubmissionsController`, which
verify first and record afterwards. Between the two any time may pass and other requests may run.

The registry of providers is given. The text of a schema error, the check of a signature and the
reading of a timestamp belong to libraries and are parameters. Times are milliseconds.
-/

namespace Refract.Oracle

open Lib

/-! ## Coverage types -/

inductive CoverageTypeName where
  | stablecoinDepeg
  | marketCrash
  | liquidationShield
  | smartContractRisk
  | flightDelay
  deriving DecidableEq, Repr

namespace CoverageTypeName

def all : List CoverageTypeName :=
  [stablecoinDepeg, marketCrash, liquidationShield, smartContractRisk, flightDelay]

def text : CoverageTypeName → String
  | stablecoinDepeg => "StablecoinDepeg"
  | marketCrash => "MarketCrash"
  | liquidationShield => "LiquidationShield"
  | smartContractRisk => "SmartContractRisk"
  | flightDelay => "FlightDelay"

/-- `COVERAGE_TYPE_PG`. -/
def pg : CoverageTypeName → String
  | stablecoinDepeg => "stablecoin_depeg"
  | marketCrash => "market_crash"
  | liquidationShield => "liquidation_shield"
  | smartContractRisk => "smart_contract_risk"
  | flightDelay => "flight_delay"

def ofText? (s : String) : Option CoverageTypeName := all.find? fun c => c.text = s

end CoverageTypeName

/-- Unit and sanity bounds of a coverage type. -/
structure ObservationRule where
  unit : String
  min : Int
  max : Int

/-- `OBSERVATION_RULES`. -/
def observationRule : CoverageTypeName → ObservationRule
  | .stablecoinDepeg => ⟨"usd", 0, 2⟩
  | .marketCrash => ⟨"percent", -100, 1000⟩
  | .liquidationShield => ⟨"ratio", 0, 1⟩
  | .smartContractRisk => ⟨"percent", -100, 100⟩
  | .flightDelay => ⟨"minutes", 0, 10080⟩

/-! ## The wire format -/

/-- `(0|[1-9]\d{0,13})`. -/
def isIntegerPart : List Char → Bool
  | ['0'] => true
  | first :: rest => first.isDigit && first ≠ '0' && rest.all Char.isDigit && rest.length ≤ 13
  | [] => false

/-- `\.\d{0,5}[1-9]`, or nothing. -/
def isFractionPart : List Char → Bool
  | [] => true
  | '.' :: digits =>
    digits.all Char.isDigit && digits.length ≤ 6 && digits.getLast?.any (· ≠ '0')
  | _ => false

/-- `DECIMAL_VALUE_PATTERN`. -/
def isDecimalValue (s : String) : Bool :=
  let unsigned := if s.toList.head? = some '-' then s.toList.tail else s.toList
  s ≠ "-0" && isIntegerPart (unsigned.takeWhile (· ≠ '.')) &&
    isFractionPart (unsigned.dropWhile (· ≠ '.'))

/-- The number of a decimal value. -/
def decimalValue (s : String) : ℚ :=
  let digits := (s.toList.filter Char.isDigit).map fun c => c.toNat - '0'.toNat
  let places := (s.toList.dropWhile (· ≠ '.')).length - 1
  let magnitude : ℚ := (digits.foldl (10 * · + ·) 0 : Nat) / 10 ^ places
  if s.toList.head? = some '-' then -magnitude else magnitude

/-- The characters agree with a template, in which `d` stands for any digit. -/
def fits : List Char → List Char → Bool
  | [], [] => true
  | t :: template, c :: cs => (if t = 'd' then c.isDigit else c = t) && fits template cs
  | _, _ => false

/-- `OBSERVED_AT_PATTERN`. -/
def isObservedAt (s : String) : Bool :=
  let (date, rest) := s.toList.splitAt 19
  fits "dddd-dd-ddTdd:dd:dd".toList date &&
    (fits "Z".toList rest || fits ".dZ".toList rest || fits ".ddZ".toList rest ||
      fits ".dddZ".toList rest)

/-- `NONCE_PATTERN`. -/
def isNonce (s : String) : Bool :=
  s.toList.all (fun c => c.isDigit || ('A' ≤ c && c ≤ 'Z') || ('a' ≤ c && c ≤ 'z') ||
    c = '_' || c = '-') && 16 ≤ s.toList.length && s.toList.length ≤ 64

/-- The body of a submission that `submissionBodySchema` accepts. -/
structure SubmissionBody where
  providerId : String
  coverageType : String
  value : String
  unit : String
  observedAt : String
  nonce : String
  signature : String

/-- `length` of a string, between bounds. -/
def hasLength (min max : Nat) (s : String) : Bool :=
  min ≤ (codeUnits s).length && (codeUnits s).length ≤ max

def SubmissionBody.isWellFormed (b : SubmissionBody) : Bool :=
  hasLength 1 64 b.providerId && hasLength 1 40 b.coverageType && hasLength 0 24 b.value &&
    isDecimalValue b.value && hasLength 1 16 b.unit && isObservedAt b.observedAt &&
    isNonce b.nonce && hasLength 1 128 b.signature

def stringField (fields : List (String × Json)) (name : String) : Option String :=
  match fields.find? fun field => field.1 = name with
  | some (_, .string s) => some s
  | _ => none

/-- `submissionBodySchema.safeParse`: a strict object. -/
def parseBody : Json → Option SubmissionBody
  | .object fields => do
      let providerId ← stringField fields "provider_id"
      let coverageType ← stringField fields "coverage_type"
      let value ← stringField fields "value"
      let unit ← stringField fields "unit"
      let observedAt ← stringField fields "observed_at"
      let nonce ← stringField fields "nonce"
      let signature ← stringField fields "signature"
      let body : SubmissionBody :=
        ⟨providerId, coverageType, value, unit, observedAt, nonce, signature⟩
      if fields.length = 7 ∧ body.isWellFormed = true then some body else none
  | _ => none

/-- The signed bytes: the fields in the order of their names. -/
def canonicalizeSubmission (b : SubmissionBody) : String :=
  let field (name value : String) : String := quoteJson name ++ ":" ++ quoteJson value
  "\x7b" ++ ",".intercalate
    [field "coverage_type" b.coverageType, field "nonce" b.nonce,
     field "observed_at" b.observedAt, field "provider_id" b.providerId, field "unit" b.unit,
     field "value" b.value] ++ "\x7d"

/-! ## Verification -/

structure SubmissionProvider where
  id : String
  publicKey : String
  coverageTypes : List CoverageTypeName

/-- What the verifier is given: the registry, the text of the schema's issues for a body, whether
the base64 text is a signature of 64 bytes of the key over the text, and `Date.parse`. -/
structure SubmissionEnv where
  providers : OrdMap String SubmissionProvider
  issues : Json → String
  verifies : String → String → String → Bool
  dateParse : String → Option Int

inductive SubmissionErrorCode where
  | invalidSubmission
  | unknownProvider
  | rateLimited
  | invalidSignature
  | staleObservedAt
  | unsupportedCoverageType
  | unitMismatch
  | valueOutOfBounds

/-- `reject`: the HTTP status, the code and the text of an error. -/
structure SubmissionRejection where
  status : Nat
  code : SubmissionErrorCode
  error : String

structure VerifiedSubmission where
  providerId : String
  coverageType : CoverageTypeName
  value : String
  unit : String
  observedAt : Int
  nonce : String
  signature : String

def submissionMaxAgeMs : ℚ := 5 * 60000

def submissionMaxClockSkewMs : ℚ := 30000

def providerRateLimitPerMinute : Nat := 60

structure RateBucket where
  count : Nat
  resetAt : ℚ

/-- Fixed-window budget of a provider, and whether it is exceeded. -/
def consumeRateBudget (buckets : OrdMap String RateBucket) (providerId : String) (now : ℚ) :
    OrdMap String RateBucket × Bool :=
  let bucket : RateBucket :=
    match buckets.get? providerId with
    | some bucket => if bucket.resetAt ≤ now then ⟨0, now + 60000⟩ else bucket
    | none => ⟨0, now + 60000⟩
  let bucket := { bucket with count := bucket.count + 1 }
  (buckets.set providerId bucket, decide (providerRateLimitPerMinute < bucket.count))

/-- The checks after the signature: freshness, then coverage, unit and bounds. -/
def checkObservation (env : SubmissionEnv) (provider : SubmissionProvider) (b : SubmissionBody)
    (now : ℚ) : Except SubmissionRejection VerifiedSubmission :=
  match env.dateParse b.observedAt with
  | none => .error ⟨400, .invalidSubmission, "observed_at is not a valid calendar date"⟩
  | some observedMs =>
    if submissionMaxAgeMs < now - observedMs ∨ submissionMaxClockSkewMs < observedMs - now then
      .error ⟨422, .staleObservedAt, "observed_at is outside the freshness window"⟩
    else
      match CoverageTypeName.ofText? b.coverageType with
      | none => .error ⟨422, .unsupportedCoverageType,
          "Coverage type is not supported for this provider"⟩
      | some coverageType =>
        let rule := observationRule coverageType
        if coverageType ∉ provider.coverageTypes then
          .error ⟨422, .unsupportedCoverageType,
            "Coverage type is not supported for this provider"⟩
        else if b.unit ≠ rule.unit then
          .error ⟨422, .unitMismatch, "Unit must be \"" ++ rule.unit ++ "\""⟩
        else if decimalValue b.value < rule.min ∨ rule.max < decimalValue b.value then
          .error ⟨422, .valueOutOfBounds, "Value must be between " ++ toString rule.min ++
            " and " ++ toString rule.max ++ " for this coverage type"⟩
        else
          .ok ⟨provider.id, coverageType, b.value, b.unit, observedMs, b.nonce, b.signature⟩

/-- Verifies a submission; the budget is consumed before the signature is looked at. -/
def verify (env : SubmissionEnv) (buckets : OrdMap String RateBucket) (body : Json) (now : ℚ) :
    OrdMap String RateBucket × Except SubmissionRejection VerifiedSubmission :=
  match parseBody body with
  | none => (buckets,
      .error ⟨400, .invalidSubmission, "Invalid submission: " ++ env.issues body⟩)
  | some b =>
    match env.providers.get? b.providerId with
    | none => (buckets, .error ⟨401, .unknownProvider, "Provider is not registered"⟩)
    | some provider =>
      let (buckets, limited) := consumeRateBudget buckets provider.id now
      if limited then
        (buckets, .error ⟨429, .rateLimited, "Provider submission rate limit exceeded"⟩)
      else if !env.verifies provider.publicKey (canonicalizeSubmission b) b.signature then
        (buckets, .error ⟨401, .invalidSignature,
          "Signature does not verify against the provider key"⟩)
      else (buckets, checkObservation env provider b now)

/-! ## The repository -/

/-- A row of `oracle_submission_nonces`. -/
structure NonceRow where
  providerId : String
  nonce : String
  expiresAt : ℚ

/-- A row of `oracle_submissions`. -/
structure SubmissionRow where
  providerId : String
  nonce : String
  coverageType : String
  value : ℚ
  unit : String
  observedAt : Int
  signature : String

structure SubmissionDb where
  nonces : List NonceRow
  submissions : List SubmissionRow

def VerifiedSubmission.row (v : VerifiedSubmission) : SubmissionRow :=
  ⟨v.providerId, v.nonce, v.coverageType.pg, decimalValue v.value, v.unit, v.observedAt,
    v.signature⟩

/-- The nonces that `DELETE … WHERE expires_at < now()` leaves. -/
def SubmissionDb.unexpired (db : SubmissionDb) (now : ℚ) : List NonceRow :=
  db.nonces.filter fun n => now ≤ n.expiresAt

/-- Claims the nonce and records the submission in one transaction; a nonce that is taken rolls
it back. -/
def recordIfNonceUnused (db : SubmissionDb) (v : VerifiedSubmission) (now : ℚ) :
    SubmissionDb × Bool :=
  if (db.unexpired now).any fun n => n.providerId = v.providerId ∧ n.nonce = v.nonce then
    (db, false)
  else
    ({ nonces := db.unexpired now ++ [⟨v.providerId, v.nonce, v.observedAt + submissionMaxAgeMs⟩]
       submissions := db.submissions ++ [v.row] }, true)

/-! ## Requests -/

/-- A request is verified, or one that was verified is recorded. -/
inductive SubmissionLabel where
  | verify (body : Json) (now : ℚ)
  | record (request : Nat) (now : ℚ)

def SubmissionLabel.now : SubmissionLabel → ℚ
  | .verify _ now => now
  | .record _ now => now

/-- The database, the budgets, the requests that are verified and not yet recorded, and the time of
the last step. -/
structure SubmissionState where
  db : SubmissionDb
  buckets : OrdMap String RateBucket
  verified : List VerifiedSubmission
  now : ℚ

def SubmissionState.start (now : ℚ) : SubmissionState := ⟨⟨[], []⟩, OrdMap.empty, [], now⟩

/-- One step of a request; the clock of server and database does not go back. -/
def submissionStep (env : SubmissionEnv) (s : SubmissionState) (l : SubmissionLabel) :
    Option SubmissionState :=
  if s.now ≤ l.now then
    match l with
    | .verify body now =>
      match verify env s.buckets body now with
      | (buckets, .ok v) => some { s with buckets, verified := s.verified ++ [v], now }
      | (buckets, .error _) => some { s with buckets, now }
    | .record request now =>
      s.verified[request]?.map fun v =>
        { s with
          db := (recordIfNonceUnused s.db v now).1
          verified := s.verified.eraseIdx request
          now }
  else none

/-- Steps of requests as a relation. -/
abbrev SubmissionSteps (env : SubmissionEnv) (s : SubmissionState) (l : SubmissionLabel)
    (s' : SubmissionState) : Prop :=
  submissionStep env s l = some s'

end Refract.Oracle
