import Refract.Lib.Runs
import Refract.Lib.Tables

/-!
# Provider credentials

`ProviderCredentialService` of `provider-credential.service.ts` and `CredentialRepository` of
`credential.repository.ts`, over the tables of `004_provider_credentials.sql`: providers, their
versioned keys, revocations and rotations. An operation is a sequence of single statements without a
transaction around them, so a rejection keeps what the statements before it have written. Each
operation therefore returns the database together with its result.

Ids are UUIDs in the database's own spelling; those the database generates, the raw keys drawn, and
the time are part of the call. The hash of raw keys is a parameter. The forensic report only reads
other tables and is left out, as are the columns `rotating_at` and `revoked_at`.
-/

namespace Refract.Oracle

open Lib

/-! ## The tables -/

inductive KeyStatus where
  | active
  | rotating
  | revoked
  | superseded
  deriving DecidableEq, Repr

/-- A row of `oracle_providers`. -/
structure ProviderIdentity where
  id : String
  name : String
  contact : String
  isActive : Bool

/-- A row of `provider_keys`. -/
structure ProviderKey where
  id : String
  providerId : String
  keyHash : String
  version : Int
  status : KeyStatus
  effectiveUntilSequence : Option Int

/-- A row of `provider_revocations`. -/
structure RevocationRecord where
  id : String
  keyId : String
  providerId : String
  reason : String
  actor : String
  effectiveFromSequence : Int
  supersedesRevocationId : Option String

/-- A row of `provider_key_rotations`. Times are milliseconds. -/
structure KeyRotationRecord where
  id : String
  providerId : String
  oldKeyId : String
  newKeyId : String
  overlapWindowEndsAt : Int
  actor : String
  initiatedAt : ℚ
  completedAt : Option ℚ

structure CredentialDb where
  providers : List ProviderIdentity
  keys : List ProviderKey
  revocations : List RevocationRecord
  rotations : List KeyRotationRecord

def CredentialDb.empty : CredentialDb := ⟨[], [], [], []⟩

/-! ## The statements -/

variable (db : CredentialDb)

def createProvider (id name contact : String) :
    Except SqlState (CredentialDb × ProviderIdentity) := do
  let name ← varchar 80 name
  let contact ← varchar 255 contact
  enforce (∀ p ∈ db.providers, p.name ≠ name) .uniqueViolation
  let provider := ⟨id, name, contact, true⟩
  .ok ({ db with providers := db.providers ++ [provider] }, provider)

def getProvider (providerId : String) : Option ProviderIdentity :=
  db.providers.find? fun p => p.id = providerId

def createKey (id providerId keyHash : String) (version : Int) :
    Except SqlState (CredentialDb × ProviderKey) := do
  enforce (∀ k ∈ db.keys, k.keyHash ≠ keyHash) .uniqueViolation
  enforce (∀ k ∈ db.keys, k.providerId = providerId → k.version ≠ version) .uniqueViolation
  enforce (∃ p ∈ db.providers, p.id = providerId) .foreignKeyViolation
  let key := ⟨id, providerId, keyHash, version, .active, none⟩
  .ok ({ db with keys := db.keys ++ [key] }, key)

def getKey (keyId : String) : Option ProviderKey :=
  db.keys.find? fun k => k.id = keyId

/-- `ORDER BY version DESC`. -/
def listKeysByProvider (providerId : String) : List ProviderKey :=
  sortBy (fun a b => compare b.version a.version)
    (db.keys.filter fun k => k.providerId = providerId)

/-- The statuses the submission boundary accepts. -/
def KeyStatus.isAcceptable : KeyStatus → Bool
  | .active | .rotating => true
  | .revoked | .superseded => false

def getAcceptableKeys (providerId : String) : List ProviderKey :=
  db.keys.filter fun k => k.providerId = providerId && k.status.isAcceptable

/-- Sets the status, whatever it was; a sequence that is not given is kept. -/
def updateKeyStatus (keyId : String) (status : KeyStatus)
    (effectiveUntilSequence : Option JsNumber) : Except SqlState CredentialDb := do
  let sequence ← effectiveUntilSequence.mapM bigint
  let update := fun k : ProviderKey => { k with
    status, effectiveUntilSequence := sequence.orElse fun _ => k.effectiveUntilSequence }
  .ok { db with keys := updateWhere (fun k => decide (k.id = keyId)) update db.keys }

/-- The reason and the actor are not checked, and may be missing. -/
structure RevocationParams where
  keyId : String
  reason : Option String
  actor : Option String
  effectiveFromSequence : JsNumber

/-- What a text column stores that is `NOT NULL`; the database refuses U+0000. -/
def textColumn (value : Option String) : Except SqlState String :=
  match value with
  | some text => if Char.ofNat 0 ∈ text.toList then .error .invalidValue else .ok text
  | none => .error .invalidValue

/-- The columns of a revocation that the request gives. -/
def revocationColumns (params : RevocationParams) : Except SqlState (String × String × Int) := do
  let reason ← textColumn params.reason
  let actor ← textColumn params.actor
  return (reason, ← varchar 80 actor, ← bigint params.effectiveFromSequence)

def recordRevocation (id : String) (params : RevocationParams) (providerId : String)
    (supersedesRevocationId : Option String) :
    Except SqlState (CredentialDb × RevocationRecord) := do
  let (reason, actor, sequence) ← revocationColumns params
  enforce (∃ k ∈ db.keys, k.id = params.keyId) .foreignKeyViolation
  enforce (∃ p ∈ db.providers, p.id = providerId) .foreignKeyViolation
  enforce (∀ previous ∈ supersedesRevocationId, ∃ r ∈ db.revocations, r.id = previous)
    .foreignKeyViolation
  let record := ⟨id, params.keyId, providerId, reason, actor, sequence, supersedesRevocationId⟩
  .ok ({ db with revocations := db.revocations ++ [record] }, record)

/-- `overlapWindowEndsAt` is missing for an invalid date, which the database refuses. -/
def recordRotation (id providerId oldKeyId newKeyId : String) (overlapWindowEndsAt : Option Int)
    (actor : String) (now : ℚ) : Except SqlState (CredentialDb × KeyRotationRecord) := do
  let actor ← varchar 80 actor
  match overlapWindowEndsAt with
  | none => .error .invalidValue
  | some overlapWindowEndsAt =>
    let record :=
      ⟨id, providerId, oldKeyId, newKeyId, overlapWindowEndsAt, actor, now, none⟩
    .ok ({ db with rotations := db.rotations ++ [record] }, record)

/-- `UPDATE provider_key_rotations SET completed_at = now() WHERE id = $1`. -/
def markCompleted (rotationId : String) (now : ℚ) : CredentialDb :=
  let update := fun r : KeyRotationRecord => { r with completedAt := some now }
  { db with rotations := updateWhere (fun r => decide (r.id = rotationId)) update db.rotations }

/-- The latest rotation of the provider that is not completed. -/
def getActiveRotation (providerId : String) : Option KeyRotationRecord :=
  (sortBy (fun a b => compare b.initiatedAt a.initiatedAt)
    (db.rotations.filter fun r => r.providerId = providerId && r.completedAt.isNone)).head?

/-! ## The service -/

section Service

-- The SHA-256 of a raw key, in hexadecimal.
variable (hashKey : String → String)

/-- Comparison of a presented raw key against a stored hash. -/
def verifyKey (rawKey storedHash : String) : Bool := decide (hashKey rawKey = storedHash)

variable (db : CredentialDb)

def registerProvider (providerId keyId name contact rawKey : String) :
    CredentialDb × Except Rejection ProviderIdentity :=
  match createProvider db providerId name contact with
  | .error state => (db, .error (.database state))
  | .ok (db, provider) =>
    match createKey db keyId provider.id (hashKey rawKey) 1 with
    | .error state => (db, .error (.database state))
    | .ok (db, _) => (db, .ok provider)

/-- Validates a raw API key at the submission boundary: the matching key record. -/
def validateSubmission (providerId rawKey : String) : Except String ProviderKey :=
  match (getAcceptableKeys db providerId).find? fun k => verifyKey hashKey rawKey k.keyHash with
  | some key => .ok key
  | none => .error ("No valid active key for provider " ++ providerId ++
      ". Key may be revoked or unknown.")

/-- Revokes a key, whatever its status is. -/
def revokeKey (id : String) (params : RevocationParams) :
    CredentialDb × Except Rejection RevocationRecord :=
  match getKey db params.keyId with
  | none => (db, .error (.notFound ("Key " ++ params.keyId ++ " not found")))
  | some key =>
    if key.status = .revoked then
      (db, .error (.conflict ("Key " ++ params.keyId ++ " is already revoked")))
    else
      match getProvider db key.providerId with
      | none => (db, .error (.notFound ("Provider " ++ key.providerId ++ " not found")))
      | some _ =>
        match updateKeyStatus db params.keyId .revoked (some params.effectiveFromSequence) with
        | .error state => (db, .error (.database state))
        | .ok db =>
          match recordRevocation db id params key.providerId none with
          | .error state => (db, .error (.database state))
          | .ok (db, record) => (db, .ok record)

/-- Restores a revoked key to active, and then inserts the superseding record. -/
def reverseRevocation (id : String) (params : RevocationParams) (supersedesRevocationId : String) :
    CredentialDb × Except Rejection RevocationRecord :=
  match getKey db params.keyId with
  | none => (db, .error (.notFound ("Key " ++ params.keyId ++ " not found")))
  | some key =>
    if key.status ≠ .revoked then
      (db, .error (.badRequest ("Key " ++ params.keyId ++ " is not currently revoked")))
    else
      match updateKeyStatus db params.keyId .active none with
      | .error state => (db, .error (.database state))
      | .ok db =>
        match recordRevocation db id params key.providerId (some supersedesRevocationId) with
        | .error state => (db, .error (.database state))
        | .ok (db, record) => (db, .ok record)

def defaultOverlapWindowSeconds : ℚ := 300

/-- `new Date(Date.now() + overlapSeconds * 1000)`; `none` is the invalid date. -/
def overlapWindowEnd (now : ℚ) : JsNumber → Option Int
  | .finite seconds => timeClip (now + seconds * 1000)
  | _ => none

/-- What a call of `initiateRotation` draws: the ids of the new rows and the raw key. -/
structure RotationDraw where
  rotationId : String
  newKeyId : String
  rawKey : String

/-- Creates the next key and puts the active one of the highest version into the overlap window. -/
def initiateRotation (draw : RotationDraw) (providerId actor : String)
    (overlapWindowSeconds : Option JsNumber) (now : ℚ) :
    CredentialDb × Except Rejection KeyRotationRecord :=
  match getProvider db providerId with
  | none => (db, .error (.notFound ("Provider " ++ providerId ++ " not found")))
  | some _ =>
    match getActiveRotation db providerId with
    | some _ => (db, .error (.conflict
        ("Provider " ++ providerId ++ " already has an in-progress rotation")))
    | none =>
      let currentKeys := listKeysByProvider db providerId
      match currentKeys.find? fun k => k.status = .active with
      | none => (db, .error (.badRequest
          ("Provider " ++ providerId ++ " has no active key to rotate")))
      | some activeKey =>
        let nextVersion := (currentKeys.map (·.version)).foldl max activeKey.version + 1
        match createKey db draw.newKeyId providerId (hashKey draw.rawKey) nextVersion with
        | .error state => (db, .error (.database state))
        | .ok (db, newKey) =>
          -- The statements are not in a transaction: what was written before a failure stays.
          match updateKeyStatus db activeKey.id .rotating none with
          | .error state => (db, .error (.database state))
          | .ok db =>
            let endsAt := overlapWindowEnd now
              (overlapWindowSeconds.getD (.finite defaultOverlapWindowSeconds))
            match recordRotation db draw.rotationId providerId activeKey.id newKey.id
              endsAt actor now with
            | .error state => (db, .error (.database state))
            | .ok (db, rotation) => (db, .ok rotation)

/-- Supersedes the old key of the rotation in progress and closes the overlap window. -/
def completeRotation (providerId : String) (now : ℚ) :
    CredentialDb × Except Rejection KeyRotationRecord :=
  match getActiveRotation db providerId with
  | none => (db, .error (.notFound ("No active rotation found for provider " ++ providerId)))
  | some rotation =>
    match updateKeyStatus db rotation.oldKeyId .superseded none with
    | .error state => (db, .error (.database state))
    | .ok db => (markCompleted db rotation.id now, .ok rotation)

end Service

/-! ## Runs -/

/-- A call of one of the operations, with what is drawn for it. -/
inductive CredentialCall where
  | registerProvider (providerId keyId name contact rawKey : String)
  | revokeKey (id : String) (params : RevocationParams)
  | reverseRevocation (id : String) (params : RevocationParams) (supersedesRevocationId : String)
  | initiateRotation (draw : RotationDraw) (providerId actor : String)
      (overlapWindowSeconds : Option JsNumber) (now : ℚ)
  | completeRotation (providerId : String) (now : ℚ)

/-- A call that succeeded, by the key it is about. -/
inductive CredentialEvent where
  | revoked (keyId : String)
  | reversed (keyId : String)
  | rotationInitiated (oldKeyId : String) (overlapWindowEndsAt : Int)
  | rotationCompleted (oldKeyId : String)
  deriving DecidableEq, Repr

/-- The database, and the calls that have succeeded. -/
structure CredentialState where
  db : CredentialDb
  trace : List CredentialEvent

def CredentialState.start : CredentialState := ⟨CredentialDb.empty, []⟩

/-- The state after a call, and the event of its success. -/
def CredentialState.after {α : Type} (s : CredentialState) (event : α → CredentialEvent) :
    CredentialDb × Except Rejection α → CredentialState
  | (db, .ok result) => ⟨db, s.trace ++ [event result]⟩
  | (db, .error _) => { s with db }

/-- Generated ids are not taken. -/
def CredentialDb.Allows : CredentialCall → Prop
  | .registerProvider providerId keyId _ _ _ =>
    (∀ p ∈ db.providers, p.id ≠ providerId) ∧ ∀ k ∈ db.keys, k.id ≠ keyId
  | .revokeKey id _ => ∀ r ∈ db.revocations, r.id ≠ id
  | .reverseRevocation id _ _ => ∀ r ∈ db.revocations, r.id ≠ id
  | .initiateRotation draw _ _ _ _ =>
    (∀ r ∈ db.rotations, r.id ≠ draw.rotationId) ∧ ∀ k ∈ db.keys, k.id ≠ draw.newKeyId
  | .completeRotation .. => True

instance CredentialDb.decidableAllows (db : CredentialDb) (call : CredentialCall) :
    Decidable (db.Allows call) := by
  unfold CredentialDb.Allows
  split <;> infer_instance

/-- The effect of one call. -/
def CredentialState.perform (hashKey : String → String) (s : CredentialState) :
    CredentialCall → CredentialState
  | .registerProvider providerId keyId name contact rawKey =>
    { s with db := (registerProvider hashKey s.db providerId keyId name contact rawKey).1 }
  | .revokeKey id params => s.after (fun r => .revoked r.keyId) (revokeKey s.db id params)
  | .reverseRevocation id params supersedesRevocationId =>
    s.after (fun r => .reversed r.keyId)
      (reverseRevocation s.db id params supersedesRevocationId)
  | .initiateRotation draw providerId actor overlapWindowSeconds now =>
    s.after (fun r => .rotationInitiated r.oldKeyId r.overlapWindowEndsAt)
      (initiateRotation hashKey s.db draw providerId actor overlapWindowSeconds now)
  | .completeRotation providerId now =>
    s.after (fun r => .rotationCompleted r.oldKeyId) (completeRotation s.db providerId now)

/-- One call of the service. -/
def credentialStep (hashKey : String → String) (s : CredentialState) (call : CredentialCall) :
    Option CredentialState :=
  if s.db.Allows call then some (s.perform hashKey call) else none

/-- Steps of the service as a relation. -/
abbrev CredentialSteps (hashKey : String → String) (s : CredentialState) (call : CredentialCall)
    (s' : CredentialState) : Prop :=
  credentialStep hashKey s call = some s'

end Refract.Oracle
